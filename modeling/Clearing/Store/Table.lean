/-!
# Tables

A table keeps one row per key, in ascending order of the keys. What it holds
is seen through `get?` and, as a whole, through `rows`.
-/

namespace Clearing

/-- One row per key, in ascending order of the keys. -/
structure Table (κ α : Type) [Ord κ] where
  entries : List (κ × α)
  sorted : entries.Pairwise fun a b => compare a.1 b.1 = .lt

namespace Table

variable {κ α : Type} [Ord κ]

instance [DecidableEq κ] [DecidableEq α] : DecidableEq (Table κ α) := fun s t =>
  if h : s.entries = t.entries then
    isTrue (by cases s; cases t; simp_all)
  else isFalse fun e => h (congrArg entries e)

def empty : Table κ α := ⟨[], .nil⟩

def rows (t : Table κ α) : List α := t.entries.map (·.2)

def size (t : Table κ α) : Nat := t.entries.length

def find (k : κ) : List (κ × α) → Option α
  | [] => none
  | (k', v) :: es => if compare k k' = .eq then some v else find k es

def get? (t : Table κ α) (k : κ) : Option α := find k t.entries

def contains (t : Table κ α) (k : κ) : Bool := (t.get? k).isSome

def put (k : κ) (v : α) : List (κ × α) → List (κ × α)
  | [] => [(k, v)]
  | e :: es =>
    match compare k e.1 with
    | .lt => (k, v) :: e :: es
    | .eq => (k, v) :: es
    | .gt => e :: put k v es

def drop (k : κ) : List (κ × α) → List (κ × α)
  | [] => []
  | e :: es => if compare k e.1 = .eq then es else e :: drop k es

theorem mem_of_mem_put {k : κ} {v : α} {e : κ × α} {es : List (κ × α)} (h : e ∈ put k v es) :
    e = (k, v) ∨ e ∈ es := by
  induction es with
  | nil => simpa [put] using h
  | cons f es ih =>
    unfold put at h
    split at h
    · simpa using h
    · rcases List.mem_cons.mp h with h | h
      · exact .inl h
      · exact .inr (List.mem_cons_of_mem _ h)
    · rcases List.mem_cons.mp h with h | h
      · exact .inr (h ▸ List.mem_cons_self)
      · exact (ih h).imp id (List.mem_cons_of_mem _)

theorem mem_of_mem_drop {k : κ} {e : κ × α} {es : List (κ × α)} (h : e ∈ drop k es) : e ∈ es := by
  induction es with
  | nil => simp [drop] at h
  | cons f es ih =>
    unfold drop at h
    split at h
    · exact List.mem_cons_of_mem _ h
    · rcases List.mem_cons.mp h with h | h
      · exact h ▸ List.mem_cons_self
      · exact List.mem_cons_of_mem _ (ih h)

theorem drop_sorted {k : κ} {es : List (κ × α)}
    (h : es.Pairwise fun a b => compare a.1 b.1 = .lt) :
    (drop k es).Pairwise fun a b => compare a.1 b.1 = .lt := by
  induction es with
  | nil => exact .nil
  | cons e es ih =>
    cases h with
    | cons hlt hes =>
      unfold drop
      split
      · exact hes
      · exact .cons (fun a ha => hlt a (mem_of_mem_drop ha)) (ih hes)

def erase (t : Table κ α) (k : κ) : Table κ α := ⟨drop k t.entries, drop_sorted t.sorted⟩

variable [Std.TransOrd κ] [Std.LawfulEqOrd κ]

theorem put_sorted {k : κ} {v : α} {es : List (κ × α)}
    (h : es.Pairwise fun a b => compare a.1 b.1 = .lt) :
    (put k v es).Pairwise fun a b => compare a.1 b.1 = .lt := by
  induction es with
  | nil => exact List.pairwise_singleton _ _
  | cons e es ih =>
    cases h with
    | cons hlt hes =>
      unfold put
      split
      next hk =>
        refine .cons (fun a ha => ?_) (.cons hlt hes)
        rcases List.mem_cons.mp ha with rfl | ha
        · exact hk
        · exact Std.TransCmp.lt_trans hk (hlt a ha)
      next hk =>
        have hk : k = e.1 := Std.LawfulEqOrd.eq_of_compare hk
        exact .cons (fun a ha => hk ▸ hlt a ha) hes
      next hk =>
        refine .cons (fun a ha => ?_) (ih hes)
        rcases mem_of_mem_put ha with rfl | ha
        · exact Std.OrientedCmp.gt_iff_lt.mp hk
        · exact hlt a ha

def insert (t : Table κ α) (k : κ) (v : α) : Table κ α := ⟨put k v t.entries, put_sorted t.sorted⟩

/-! ### What a look-up finds -/

omit [Std.TransOrd κ] in
theorem find_eq_none {k : κ} {es : List (κ × α)} (h : ∀ e ∈ es, e.1 ≠ k) : find k es = none := by
  induction es with
  | nil => rfl
  | cons e es ih =>
    have he : compare k e.1 ≠ .eq := fun hc =>
      h e List.mem_cons_self (Std.LawfulEqOrd.eq_of_compare hc).symm
    simp only [find, he, if_false]
    exact ih fun e' he' => h e' (List.mem_cons_of_mem _ he')

omit [Std.TransOrd κ] in
theorem mem_entries_iff {k : κ} {v : α} {es : List (κ × α)}
    (h : es.Pairwise fun a b => compare a.1 b.1 = .lt) : (k, v) ∈ es ↔ find k es = some v := by
  induction es with
  | nil => simp [find]
  | cons e es ih =>
    cases h with
    | cons hlt hes =>
      unfold find
      split
      next hk =>
        have hk : k = e.1 := Std.LawfulEqOrd.eq_of_compare hk
        constructor
        · intro hm
          rcases List.mem_cons.mp hm with hm | hm
          · rw [← hm]
          · have := hlt _ hm
            simp [hk] at this
        · intro hv
          simp only [Option.some.injEq] at hv
          exact List.mem_cons.mpr (.inl (by rw [hk, ← hv]))
      next hk =>
        rw [← ih hes, List.mem_cons]
        constructor
        · rintro (hm | hm)
          · exact absurd (by rw [← hm]; exact Std.ReflOrd.compare_self) hk
          · exact hm
        · exact .inr

omit [Std.TransOrd κ] in
theorem mem_iff_get? (t : Table κ α) (k : κ) (v : α) : (k, v) ∈ t.entries ↔ t.get? k = some v :=
  mem_entries_iff t.sorted

omit [Std.TransOrd κ] [Std.LawfulEqOrd κ] in
@[simp] theorem get?_empty (k : κ) : (empty : Table κ α).get? k = none := rfl

omit [Std.TransOrd κ] in
theorem find_put [DecidableEq κ] (k k' : κ) (v : α) (es : List (κ × α)) :
    find k' (put k v es) = if k' = k then some v else find k' es := by
  induction es with
  | nil => simp [put, find]
  | cons e es ih =>
    unfold put
    split
    next hk => simp [find]
    next hk =>
      have hk : k = e.1 := Std.LawfulEqOrd.eq_of_compare hk
      by_cases h : k' = k
      · simp [find, h]
      · have h' : compare k' e.1 ≠ .eq := fun hc =>
          h (hk ▸ Std.LawfulEqOrd.eq_of_compare hc)
        simp [find, h, h']
    next hk =>
      have hne : e.1 ≠ k := fun h => by simp [h] at hk
      simp only [find, ih]
      by_cases he : compare k' e.1 = .eq
      · have : k' = e.1 := Std.LawfulEqOrd.eq_of_compare he
        simp [this, hne]
      · simp [he]

theorem get?_insert [DecidableEq κ] (t : Table κ α) (k k' : κ) (v : α) :
    (t.insert k v).get? k' = if k' = k then some v else t.get? k' :=
  find_put k k' v t.entries

omit [Std.TransOrd κ] in
theorem find_drop [DecidableEq κ] {k k' : κ} {es : List (κ × α)}
    (h : es.Pairwise fun a b => compare a.1 b.1 = .lt) :
    find k' (drop k es) = if k' = k then none else find k' es := by
  induction es with
  | nil => simp [drop, find]
  | cons e es ih =>
    cases h with
    | cons hlt hes =>
      unfold drop
      split
      next hk =>
        have hk : k = e.1 := Std.LawfulEqOrd.eq_of_compare hk
        by_cases h : k' = k
        · rw [if_pos h]
          refine find_eq_none fun a ha hak => ?_
          have hl := hlt a ha
          rw [hak, h, hk] at hl
          simp at hl
        · have h' : compare k' e.1 ≠ .eq := fun hc => h (hk ▸ Std.LawfulEqOrd.eq_of_compare hc)
          simp [find, h, h']
      next hk =>
        simp only [find, ih hes]
        by_cases he : compare k' e.1 = .eq
        · have hke : k' = e.1 := Std.LawfulEqOrd.eq_of_compare he
          have : k' ≠ k := fun h => hk (h ▸ he)
          simp [he, this]
        · simp [he]

omit [Std.TransOrd κ] in
theorem get?_erase [DecidableEq κ] (t : Table κ α) (k k' : κ) :
    (t.erase k).get? k' = if k' = k then none else t.get? k' :=
  find_drop t.sorted

theorem ext_get? {s t : Table κ α} (h : ∀ k, s.get? k = t.get? k) : s = t := by
  have hm : ∀ e : κ × α, e ∈ s.entries ↔ e ∈ t.entries := fun e => by
    rw [mem_iff_get? s e.1 e.2, mem_iff_get? t e.1 e.2, h]
  have key : ∀ (l m : List (κ × α)), l.Pairwise (fun a b => compare a.1 b.1 = .lt) →
      m.Pairwise (fun a b => compare a.1 b.1 = .lt) → (∀ e, e ∈ l ↔ e ∈ m) → l = m := by
    intro l
    induction l with
    | nil =>
      intro m _ _ hlm
      cases m with
      | nil => rfl
      | cons e m => exact absurd ((hlm e).mpr List.mem_cons_self) (by simp)
    | cons e l ih =>
      intro m hl hmm hlm
      cases m with
      | nil => exact absurd ((hlm e).mp List.mem_cons_self) (by simp)
      | cons f m =>
        cases hl with
        | cons hel hl =>
          cases hmm with
          | cons hfm hmm =>
            have hef : e = f := by
              rcases List.mem_cons.mp ((hlm e).mp List.mem_cons_self) with h1 | h1
              · exact h1
              · rcases List.mem_cons.mp ((hlm f).mpr List.mem_cons_self) with h2 | h2
                · exact h2.symm
                · have h3 := Std.TransCmp.lt_trans (hfm e h1) (hel f h2)
                  simp at h3
            subst hef
            refine congrArg (e :: ·) (ih m hl hmm fun a => ⟨fun ha => ?_, fun ha => ?_⟩)
            · rcases List.mem_cons.mp ((hlm a).mp (List.mem_cons_of_mem _ ha)) with h1 | h1
              · have := hel a ha
                simp [h1] at this
              · exact h1
            · rcases List.mem_cons.mp ((hlm a).mpr (List.mem_cons_of_mem _ ha)) with h1 | h1
              · have := hfm a ha
                simp [h1] at this
              · exact h1
  cases s with
  | mk se hs =>
    cases t with
    | mk te ht =>
      have : se = te := key se te hs ht hm
      subst this
      rfl

theorem erase_insert [DecidableEq κ] {t : Table κ α} {k : κ} {v : α} (h : t.get? k = none) :
    (t.insert k v).erase k = t := by
  refine ext_get? fun k' => ?_
  rw [get?_erase, get?_insert]
  by_cases hk : k' = k
  · rw [if_pos hk, hk, h]
  · rw [if_neg hk, if_neg hk]

end Table
end Clearing

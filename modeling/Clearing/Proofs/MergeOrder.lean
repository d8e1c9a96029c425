import Clearing.Proofs.StatusText
import Clearing.Proofs.Transactions

/-!
# The order of the merges

What becomes of a status after many proposals is told by the proposals alone,
as long as none of them is terminal: the highest of them stays. A proposal can
be dropped because it ranks lower, or because it comes with another transaction
and ranks no higher; the second is no loss to the status, since below the
terminal statuses a rank belongs to one status only.
-/

namespace Clearing

namespace Status

/-! ### The order of the ranks -/

/-- Statuses are compared by their ranks: by the place, then by the count. -/
instance : LE Status where
  le a b := a.rank.1 < b.rank.1 ∨ a.rank.1 = b.rank.1 ∧ a.rank.2 ≤ b.rank.2

theorem le_iff {a b : Status} :
    a ≤ b ↔ a.rank.1 < b.rank.1 ∨ a.rank.1 = b.rank.1 ∧ a.rank.2 ≤ b.rank.2 := Iff.rfl

instance : DecidableLE Status := fun _ _ => decidable_of_iff _ le_iff.symm

instance : LT Status where
  lt a b := a.rank.1 < b.rank.1 ∨ a.rank.1 = b.rank.1 ∧ a.rank.2 < b.rank.2

theorem lt_iff {a b : Status} :
    a < b ↔ a.rank.1 < b.rank.1 ∨ a.rank.1 = b.rank.1 ∧ a.rank.2 < b.rank.2 := Iff.rfl

theorem lt_iff_not_le {a b : Status} : a < b ↔ ¬b ≤ a := by
  rw [lt_iff, le_iff]
  omega

theorem rankLe_iff {a b : Status} : rankLe a b = true ↔ a ≤ b := by
  unfold rankLe
  rw [le_iff, Bool.or_eq_true, Bool.and_eq_true, decide_eq_true_eq, beq_iff_eq, decide_eq_true_eq]

theorem le_refl (a : Status) : a ≤ a := .inr ⟨rfl, Int.le_refl _⟩

theorem le_trans {a b c : Status} (h : a ≤ b) (h' : b ≤ c) : a ≤ c := by
  rw [le_iff] at *
  omega

theorem le_total (a b : Status) : a ≤ b ∨ b ≤ a := by
  rw [le_iff, le_iff]
  omega

theorem le_antisymm {a b : Status} (ha : a.isTerminal = false) (h : a ≤ b) (h' : b ≤ a) :
    a = b := by
  have hplace : a.rank.1 = b.rank.1 := by
    rw [le_iff] at h h'
    omega
  have hcount : a.rank.2 = b.rank.2 := by
    rw [le_iff] at h h'
    omega
  cases a <;> cases b <;> simp [rank, isTerminal] at hplace hcount ha ⊢
  exact hcount

theorem le_of_terminal {a b : Status} (hb : b.isTerminal = true) : a ≤ b := by
  rw [le_iff]
  cases b <;> simp [isTerminal] at hb <;> cases a <;> simp [rank]

theorem accepts_iff {current incoming : Status} :
    current.accepts incoming = true ↔ current.isTerminal = false ∧ current ≤ incoming := by
  unfold accepts
  rw [Bool.and_eq_true, Bool.or_eq_true, Bool.not_eq_true', rankLe_iff]
  refine and_congr_right fun _ => ⟨?_, .inr⟩
  rintro (ht | hle)
  · exact le_of_terminal ht
  · exact hle

/-! ### One proposal after the other -/

def next (current incoming : Status) : Status :=
  if current.accepts incoming then incoming else current

def takeUp (s : Status) (incoming : List Status) : Status := incoming.foldl next s

theorem next_of_terminal {s : Status} (hs : s.isTerminal = true) (t : Status) : s.next t = s := by
  unfold next
  rw [if_neg]
  rw [accepts_iff, hs]
  simp

theorem takeUp_of_terminal {s : Status} (hs : s.isTerminal = true) (l : List Status) :
    s.takeUp l = s := by
  induction l with
  | nil => rfl
  | cons t l ih =>
    show (s.next t).takeUp l = s
    rw [next_of_terminal hs, ih]

theorem next_of_open {s : Status} (hs : s.isTerminal = false) (t : Status) :
    s.next t = if s ≤ t then t else s := by
  unfold next
  by_cases hle : s ≤ t
  · rw [if_pos (accepts_iff.mpr ⟨hs, hle⟩), if_pos hle]
  · rw [if_neg fun h => hle (accepts_iff.mp h).2, if_neg hle]

theorem le_next (s t : Status) : s ≤ s.next t := by
  unfold next
  by_cases h : s.accepts t = true
  · rw [if_pos h]
    exact (accepts_iff.mp h).2
  · rw [if_neg h]
    exact le_refl s

theorem le_next_of_open {s : Status} (hs : s.isTerminal = false) (t : Status) : t ≤ s.next t := by
  rw [next_of_open hs]
  by_cases hle : s ≤ t
  · rw [if_pos hle]
    exact le_refl t
  · rw [if_neg hle]
    exact (le_total t s).resolve_right hle

theorem next_eq_or_eq (s t : Status) : s.next t = s ∨ s.next t = t := by
  unfold next
  split
  · exact .inr rfl
  · exact .inl rfl

theorem next_open {s t : Status} (hs : s.isTerminal = false) (ht : t.isTerminal = false) :
    (s.next t).isTerminal = false := by
  rcases next_eq_or_eq s t with h | h
  · rw [h, hs]
  · rw [h, ht]

/-- What comes of a status that is not terminal: the first terminal status of
the list if there is one, or else the highest of it and the list. -/
theorem takeUp_spec {s : Status} (hs : s.isTerminal = false) (l : List Status) :
    (∀ t, l.find? isTerminal = some t → s.takeUp l = t) ∧
      (l.find? isTerminal = none → s.takeUp l ∈ s :: l ∧
        ∀ t ∈ s :: l, t ≤ s.takeUp l) := by
  induction l generalizing s with
  | nil =>
    refine ⟨fun t ht => by simp at ht, fun _ => ⟨List.mem_cons_self, fun t ht => ?_⟩⟩
    rw [List.mem_singleton.mp ht]
    exact le_refl _
  | cons i l ih =>
    show (∀ t, _ → (s.next i).takeUp l = t) ∧
      (_ → (s.next i).takeUp l ∈ _ ∧ ∀ t ∈ _, _ ≤ (s.next i).takeUp l)
    by_cases hi : i.isTerminal = true
    · have htaken : s.next i = i := by rw [next_of_open hs, if_pos (le_of_terminal hi)]
      rw [htaken, takeUp_of_terminal hi, List.find?_cons_of_pos hi]
      exact ⟨fun t ht => Option.some.inj ht, fun hnone => by simp at hnone⟩
    · obtain ⟨hfirst, hhighest⟩ := ih (next_open hs (Bool.eq_false_iff.mpr hi))
      rw [List.find?_cons_of_neg hi]
      refine ⟨hfirst, fun hnone => ?_⟩
      obtain ⟨hmem, hmax⟩ := hhighest hnone
      have htop : s.next i ≤ (s.next i).takeUp l := hmax _ List.mem_cons_self
      refine ⟨?_, fun t ht => ?_⟩
      · rcases List.mem_cons.mp hmem with h | h
        · rw [h]
          rcases next_eq_or_eq s i with h | h
          · rw [h]
            exact List.mem_cons_self
          · rw [h]
            exact List.mem_cons_of_mem _ List.mem_cons_self
        · exact List.mem_cons_of_mem _ (List.mem_cons_of_mem _ h)
      · rcases List.mem_cons.mp ht with rfl | ht
        · exact le_trans (le_next t i) htop
        · rcases List.mem_cons.mp ht with rfl | ht
          · exact le_trans (le_next_of_open hs _) htop
          · exact hmax t (List.mem_cons_of_mem _ ht)

theorem takeUp_perm {s : Status} (hs : s.isTerminal = false) {l l' : List Status}
    (hperm : l'.Perm l) (hl : ∀ t ∈ l, t.isTerminal = false) : s.takeUp l' = s.takeUp l := by
  have hl' : ∀ t ∈ l', t.isTerminal = false := fun t ht => hl t (hperm.mem_iff.mp ht)
  have hnone : ∀ {l : List Status}, (∀ t ∈ l, t.isTerminal = false) →
      l.find? isTerminal = none := by
    intro l hl
    rw [List.find?_eq_none]
    intro t ht
    rw [hl t ht]
    exact Bool.false_ne_true
  obtain ⟨hmem, hmax⟩ := (takeUp_spec hs l).2 (hnone hl)
  obtain ⟨hmem', hmax'⟩ := (takeUp_spec hs l').2 (hnone hl')
  have hopen : (s.takeUp l').isTerminal = false := by
    rcases List.mem_cons.mp hmem' with h | h
    · rw [h, hs]
    · exact hl' _ h
  have hsame : ∀ t, t ∈ s :: l' ↔ t ∈ s :: l := fun t => (hperm.cons s).mem_iff
  refine le_antisymm hopen ?_ ?_
  · exact hmax _ ((hsame _).mp hmem')
  · exact hmax' _ ((hsame _).mpr hmem)

end Status

namespace Payment

variable {p : Payment} {u : Update}

/-! ### What a merge does to a payment -/

theorem merged_of_terminal (hp : p.status.isTerminal = true) (u : Update) : p.merged u = p := by
  unfold merged
  rw [if_pos]
  rw [Bool.not_eq_true', Bool.eq_false_iff, ne_eq, Status.accepts_iff, hp]
  simp

/-- A proposal is taken or not by its status alone: what is dropped for its
transaction has the status that the payment has already. -/
theorem status_merged (p : Payment) (u : Update) :
    (p.merged u).status = p.status.next u.status := by
  unfold merged Status.next
  by_cases hacc : p.status.accepts u.status = true
  · rw [if_neg (by rw [hacc]; decide), if_pos hacc]
    by_cases hother : (p.otherTx u && u.status.rankLe p.status) = true
    · rw [if_pos hother]
      obtain ⟨hopen, hle⟩ := Status.accepts_iff.mp hacc
      have hge := Status.rankLe_iff.mp (Bool.and_eq_true_iff.mp hother).2
      exact Status.le_antisymm hopen hle hge
    · rw [if_neg hother]
      rfl
  · rw [if_pos (by rw [Bool.eq_false_iff.mpr hacc]; rfl), if_neg hacc]

@[simp] theorem id_merged (p : Payment) (u : Update) : (p.merged u).id = p.id := by
  unfold merged
  split
  · rfl
  · split <;> rfl

theorem reread_eq (p : Payment) :
    p.reread = if p.status.InWindow then .ok p
      else .error (.unreadable (UnknownStatus.mk p.status.text).message) := by
  unfold reread
  rw [Status.parse_text]
  by_cases h : p.status.InWindow
  · rw [if_pos h, if_pos h]
  · rw [if_neg h, if_neg h]

end Payment

namespace Store

variable {s s' : Store}

def Keyed (s : Store) : Prop := ∀ {id p}, s.payments.get? id = some p → p.id = id

theorem payment_eq_ok {id : String} {p : Payment} :
    s.payment id = .ok p ↔ s.payments.get? id = some p ∧ p.status.InWindow := by
  unfold payment
  cases hrow : s.payments.get? id with
  | none => simp
  | some q =>
    simp only [Payment.reread_eq, Option.some.injEq]
    by_cases h : q.status.InWindow
    · rw [if_pos h, Except.ok.injEq]
      refine ⟨fun he => ⟨he, he ▸ h⟩, And.left⟩
    · rw [if_neg h]
      simp only [reduceCtorEq, false_iff, not_and]
      rintro rfl
      exact h

theorem get?_merge (hk : s.Keyed) (u : Update) (id : String) :
    (s.after (s.merge u)).payments.get? id =
      (s.payments.get? id).map fun p =>
        if id = u.paymentId ∧ p.status.InWindow then p.merged u else p := by
  unfold merge
  cases hp : s.payment u.paymentId with
  | error fault =>
    show s.payments.get? id = _
    cases hrow : s.payments.get? id with
    | none => rfl
    | some p =>
      rw [Option.map_some, if_neg]
      rintro ⟨rfl, hread⟩
      rw [payment_eq_ok.mpr ⟨hrow, hread⟩] at hp
      cases hp
  | ok p =>
    obtain ⟨hrow, hread⟩ := payment_eq_ok.mp hp
    have hid : p.id = u.paymentId := hk hrow
    have hwritten : (if p.merged u = p then s else s.putPayment (p.merged u)).payments.get? id =
        if id = u.paymentId then some (p.merged u) else s.payments.get? id := by
      by_cases hsame : p.merged u = p
      · rw [if_pos hsame, hsame]
        by_cases h : id = u.paymentId
        · rw [if_pos h, h, hrow]
        · rw [if_neg h]
      · rw [if_neg hsame, get?_putPayment, Payment.id_merged, hid]
    show (if p.merged u = p then s else s.putPayment (p.merged u)).payments.get? id = _
    rw [hwritten]
    by_cases h : id = u.paymentId
    · rw [if_pos h, h, hrow, Option.map_some, if_pos ⟨rfl, hread⟩]
    · rw [if_neg h]
      cases s.payments.get? id with
      | none => rfl
      | some q => rw [Option.map_some, if_neg fun hq => h hq.1]

theorem Keyed.merge (hk : s.Keyed) (u : Update) : (s.after (s.merge u)).Keyed := by
  intro id p hp
  rw [get?_merge hk] at hp
  obtain ⟨q, hq, rfl⟩ := Option.map_eq_some_iff.mp hp
  split
  · rw [Payment.id_merged, hk hq]
  · exact hk hq

def ofPayment (p : Payment) : Store := empty.putPayment p

theorem get?_ofPayment (p : Payment) (id : String) :
    (ofPayment p).payments.get? id = if id = p.id then some p else none := by
  unfold ofPayment
  rw [get?_putPayment]
  rfl

theorem keyed_ofPayment (p : Payment) : (ofPayment p).Keyed := by
  intro id q hq
  rw [get?_ofPayment] at hq
  split at hq
  · rename_i h
    rw [← Option.some.inj hq, h]
  · cases hq

theorem payment_ofPayment {p : Payment} (hread : p.status.InWindow) :
    (ofPayment p).payment p.id = .ok p := by
  rw [payment_eq_ok, get?_ofPayment, if_pos rfl]
  exact ⟨rfl, hread⟩

end Store

def firstPayment : Payment :=
  .opened "" "p" "a" { owner := 1, amount := 10, merchantWallet := "m", currency := "BTC" }

def Update.statusesFor (id : String) (us : List Update) : List Status :=
  (us.filter (·.paymentId == id)).map (·.status)

namespace Desk

theorem keyed_apply {d : Desk} (hk : d.store.Keyed) (u : Update) : (d.apply u).2.store.Keyed := by
  rw [store_apply]
  exact hk.merge u

theorem payment_apply {d : Desk} (hk : d.store.Keyed) {id : String} {p : Payment}
    (hp : d.store.payment id = .ok p) {u : Update}
    (hread : u.paymentId = id → u.status.InWindow) :
    ∃ p', (d.apply u).2.store.payment id = .ok p' ∧
      p'.status = if u.paymentId = id then p.status.next u.status else p.status := by
  obtain ⟨hrow, hwindow⟩ := Store.payment_eq_ok.mp hp
  have hrow' := Store.get?_merge hk u id
  rw [hrow, Option.map_some] at hrow'
  rw [store_apply]
  by_cases h : u.paymentId = id
  · rw [if_pos ⟨h.symm, hwindow⟩] at hrow'
    refine ⟨p.merged u, Store.payment_eq_ok.mpr ⟨hrow', ?_⟩, ?_⟩
    · rw [Payment.status_merged]
      unfold Status.next
      split
      · exact hread h
      · exact hwindow
    · rw [if_pos h, Payment.status_merged]
  · rw [if_neg fun hc => h hc.1.symm] at hrow'
    exact ⟨p, Store.payment_eq_ok.mpr ⟨hrow', hwindow⟩, (if_neg h).symm⟩

theorem payment_mergeAll {d : Desk} (hk : d.store.Keyed) {id : String} {p : Payment}
    (hp : d.store.payment id = .ok p) {us : List Update}
    (hread : ∀ u ∈ us, u.paymentId = id → u.status.InWindow) :
    ∃ p', (d.mergeAll us).store.payment id = .ok p' ∧
      p'.status = p.status.takeUp (Update.statusesFor id us) := by
  induction us generalizing d p with
  | nil => exact ⟨p, hp, rfl⟩
  | cons u us ih =>
    obtain ⟨q, hq, hstatus⟩ := payment_apply hk hp (hread u List.mem_cons_self)
    obtain ⟨p', hp', hstatus'⟩ :=
      ih (keyed_apply hk u) hq fun v hv => hread v (List.mem_cons_of_mem _ hv)
    refine ⟨p', hp', hstatus'.trans ?_⟩
    rw [hstatus]
    unfold Update.statusesFor
    by_cases h : u.paymentId = id
    · rw [if_pos h, List.filter_cons_of_pos (by rw [beq_iff_eq, h])]
      rfl
    · rw [if_neg h, List.filter_cons_of_neg (by rw [beq_iff_eq]; exact h)]

/-- **The order of the merges is of no account.** A payment that is not finished is
sent any updates with statuses that read back, with updates of other payments in
between. Its status is then the first terminal one proposed to it or, if none is,
the highest of the status it had and those proposed, in whatever order they come. -/
theorem merge_order (d : Desk) (hkeyed : d.store.Keyed) {id : String} {p : Payment}
    (hp : d.store.payment id = .ok p) (hopen : p.status.isTerminal = false) (us : List Update)
    (hread : ∀ u ∈ us, u.paymentId = id → u.status.InWindow) :
    let proposed := Update.statusesFor id us
    ∃ p', (d.mergeAll us).store.payment id = .ok p' ∧
      (∀ t, proposed.find? Status.isTerminal = some t → p'.status = t) ∧
      (proposed.find? Status.isTerminal = none →
        (p'.status ∈ p.status :: proposed ∧
          ∀ t ∈ p.status :: proposed, t ≤ p'.status) ∧
        ∀ us' : List Update, us'.Perm us →
          ∃ p'', (d.mergeAll us').store.payment id = .ok p'' ∧ p''.status = p'.status) := by
  intro proposed
  obtain ⟨p', hp', hstatus⟩ := payment_mergeAll hkeyed hp hread
  obtain ⟨hfirst, hhighest⟩ := Status.takeUp_spec hopen proposed
  rw [← hstatus] at hfirst hhighest
  refine ⟨p', hp', fun t ht => hfirst t ht, fun hnone => ⟨hhighest hnone, fun us' hperm => ?_⟩⟩
  obtain ⟨p'', hp'', hstatus'⟩ :=
    payment_mergeAll hkeyed hp fun u hu => hread u (hperm.mem_iff.mp hu)
  have hproposed : (Update.statusesFor id us').Perm proposed := (hperm.filter _).map _
  have hnotTerminal : ∀ t ∈ proposed, t.isTerminal = false := fun t ht =>
    Bool.eq_false_iff.mpr (List.find?_eq_none.mp hnone t ht)
  refine ⟨p'', hp'', ?_⟩
  rw [hstatus', hstatus]
  exact Status.takeUp_perm hopen hproposed hnotTerminal

/-- Two transactions are seen for a new payment and the provider says that it
is pending; the final depth stays. -/
theorem merge_order_twoSightings :
    ∃ p', ((ofStore (.ofPayment firstPayment)).mergeAll [
        .ofSighting "p" (.of World.secondTx 7), .ofWebhook "p" .pending,
        .ofSighting "p" (.of World.firstTx 2)]).store.payment "p" = .ok p' ∧
      Status.confirmed ≤ p'.status := by
  have hread : ∀ u ∈ [Update.ofSighting "p" (.of World.secondTx 7), .ofWebhook "p" .pending,
      .ofSighting "p" (.of World.firstTx 2)], u.paymentId = "p" → u.status.InWindow := by
    decide
  obtain ⟨p', hp', -, h⟩ := merge_order (ofStore (.ofPayment firstPayment))
    (Store.keyed_ofPayment _) (Store.payment_ofPayment trivial) rfl _ hread
  exact ⟨p', hp', (h (by decide)).1.2 _ (by decide)⟩

end Desk
end Clearing

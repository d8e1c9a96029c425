import Clearing.Proofs.Interleaving

/-!
# One attempt has the latch

Of all attempts on a transfer at most one flips the latch, and from then on it
alone writes the transfer and moves the funds. `Held` lists how far that
attempt can have come: the deeds it has done since, the stage it is in and the
row as it is stored. In every run each transfer is either free, with nothing
done for it, or taken by one attempt that stands in this list.
-/

namespace Clearing

open Attempt

/-- Deeds that only the attempt with the latch can do. -/
def Deed.binds : Deed → Bool
  | .opened _ | .heard _ _ => false
  | _ => true

def Entry.deedOn? (t : Nat) : Entry → Option Deed
  | .deed _ t' d => if t' = t ∧ d.binds then some d else none
  | .linked _ _ => none

/-- What was done for a transfer under the latch, in order and by any
attempt. -/
def World.deeds (w : World) (t : Nat) : List Deed := w.log.filterMap (Entry.deedOn? t)

/-- An attempt has the latch of the pending transfer `r`: what it has done, and
where it stands. -/
inductive Moving (r : Transfer) : List Deed → Stage → Prop
  | claimed : Moving r [.claimed] (.debiting r)
  | debitRefused : Moving r [.claimed, .debitRefused] (.finishing .failed)
  | debited (hpos : 0 < r.amount) :
      Moving r [.claimed, .debited r.source r.amount] (.crediting r)
  | credited (hpos : 0 < r.amount) :
      Moving r [.claimed, .debited r.source r.amount, .credited r.receiver r.amount]
        (.finishing .completed)
  | creditRefused (hpos : 0 < r.amount) :
      Moving r [.claimed, .debited r.source r.amount, .creditRefused] (.refunding r)
  | refunded (hpos : 0 < r.amount) :
      Moving r [.claimed, .debited r.source r.amount, .creditRefused,
        .refunded r.source r.amount] (.finishing .failed)
  | refundRefused (hpos : 0 < r.amount) :
      Moving r [.claimed, .debited r.source r.amount, .creditRefused, .refundRefused]
        (.finishing .failed)

/-- An attempt has flipped the latch of the transfer that is stored as `r`. -/
inductive Held : Transfer → List Deed → Stage → Prop
  | moving {r ds σ} (hs : r.status = .pending) (h : Moving r ds σ) : Held r ds σ
  | settled {r ds status} (hs : r.status = .pending) (h : Moving r ds (.finishing status)) :
      Held { r with status } (ds ++ [.settled status])
        (.done (.ok (.settled { r with status })))
  | closed {r} (hs : r.status = .failed) : Held r [.closed] .reporting
  | reported {r} (hs : r.status = .failed) :
      Held r [.closed, .settled r.status] (.done (.ok (.settled r)))

/-- What can become of a transfer whose latch is flipped: while it is pending it
may be given a status, and else nothing. -/
def Transfer.Ends (r r' : Transfer) : Prop :=
  r' = r ∨ r.status = .pending ∧ ∃ status, r' = { r with status }

namespace Transfer.Ends

variable {r r' r'' : Transfer}

theorem refl (r : Transfer) : r.Ends r := .inl rfl

theorem trans (h : r.Ends r') (h' : r'.Ends r'') : r.Ends r'' := by
  obtain rfl | ⟨hs, status, rfl⟩ := h
  · exact h'
  · obtain rfl | ⟨-, status', rfl⟩ := h'
    · exact .inr ⟨hs, status, rfl⟩
    · exact .inr ⟨hs, status', rfl⟩

theorem isProcessed_eq (h : r.Ends r') : r'.isProcessed = r.isProcessed := by
  obtain rfl | ⟨-, status, rfl⟩ := h
  · rfl
  · rfl

theorem eq_of_ne (h : r.Ends r') (hs : r.status ≠ .pending) : r' = r := by
  obtain rfl | ⟨hs', -⟩ := h
  · rfl
  · exact absurd hs' hs

end Transfer.Ends

theorem Held.holds {r : Transfer} {ds : List Deed} {σ : Stage} (h : Held r ds σ) :
    σ.holds = true := by
  cases h with
  | moving _ hm => cases hm <;> rfl
  | settled _ _ => rfl
  | closed _ => rfl
  | reported _ => rfl

/-! ### One transaction of an attempt -/

section Turns

variable {policy : Policy} {s s' : Store} {id : Nat} {σ τ : Stage} {d : Option Deed}

theorem Attempt.Turn.row_ne (hs : s.Sound) (h : Turn policy s id σ d τ s') {t : Nat}
    (hne : t ≠ id) :
    s'.transfers.get? t = s.transfers.get? t := by
  have other : ∀ {r r' : Transfer}, s.transfers.get? id = some r → r'.id = r.id →
      (s.putTransfer r').transfers.get? t = s.transfers.get? t := by
    intro r r' hr hid
    rw [Store.get?_putTransfer, if_neg]
    rw [hid, hs.transfer_id hr]
    exact hne
  cases h with
  | counted hr _ _ => exact other hr rfl
  | claimed hr _ => exact other hr rfl
  | closed hr _ => exact other hr rfl
  | finished hr => exact other hr rfl
  | debited h => rw [Ledger.transfers_debit h]
  | credited h => rw [Ledger.transfers_credit h]
  | refunded h => rw [Ledger.transfers_credit h]
  | waits | ended | missing | late | opened | unlinked | debitRefused | creditRefused
  | refundRefused | reported => rfl

theorem Attempt.Turn.of_processed {r : Transfer} (hr : s.transfers.get? id = some r)
    (hp : r.isProcessed = true) (hσ : σ.holds = false) (h : Turn policy s id σ d τ s') :
    d = none ∧ s' = s ∧ τ.holds = false := by
  have absurd_open : ∀ {q : Transfer} {P : Prop}, s.transfers.get? id = some q →
      q.isProcessed = false → P := by
    intro q P hq hp'
    rw [hr] at hq
    cases hq
    simp [hp] at hp'
  cases h with
  | waits => exact ⟨rfl, rfl, rfl⟩
  | ended => exact ⟨rfl, rfl, hσ⟩
  | missing hnone _ => simp [hnone] at hr
  | late _ _ _ => exact ⟨rfl, rfl, rfl⟩
  | opened hq hp' _ => exact absurd_open hq hp'
  | unlinked hq hp' _ => exact absurd_open hq hp'
  | counted hq hp' _ => exact absurd_open hq hp'
  | claimed hq hp' => exact absurd_open hq hp'
  | closed hq hp' => exact absurd_open hq hp'
  | debited | debitRefused | credited | creditRefused | refunded | refundRefused | finished
  | reported => simp [Stage.holds] at hσ

theorem Attempt.Turn.of_free (hs : s.Sound)
    (hrow : ∀ r, s.transfers.get? id = some r → r.isProcessed = false ∧ r.status = .pending)
    (hσ : σ.holds = false) (h : Turn policy s id σ d τ s') :
    (d.filter Deed.binds = none ∧ τ.holds = false ∧
      ∀ r, s'.transfers.get? id = some r → r.isProcessed = false ∧ r.status = .pending) ∨
    ∃ r d', s'.transfers.get? id = some r ∧ r.isProcessed = true ∧ d = some d' ∧ d'.binds = true ∧
      Held r [d'] τ := by
  cases h with
  | waits => exact .inl ⟨rfl, rfl, hrow⟩
  | ended => exact .inl ⟨rfl, hσ, hrow⟩
  | missing _ _ => exact .inl ⟨rfl, rfl, hrow⟩
  | late _ _ _ => exact .inl ⟨rfl, rfl, hrow⟩
  | opened _ _ _ => exact .inl ⟨rfl, rfl, hrow⟩
  | unlinked _ _ _ => exact .inl ⟨rfl, Stage.holds_of_early (isEarly_whileShallow policy), hrow⟩
  | counted hr hp hτ =>
    refine .inl ⟨rfl, ?_, fun q hq => ?_⟩
    · rw [hτ]
      split <;> rfl
    · have hfree := hrow _ hr
      rw [← hs.eq_of_rewrite hr hq rfl]
      exact hfree
  | claimed hr hp =>
    exact .inr ⟨_, _, hs.get?_rewrite hr rfl, rfl, rfl, rfl, .moving (hrow _ hr).2 .claimed⟩
  | closed hr hp => exact .inr ⟨_, _, hs.get?_rewrite hr rfl, rfl, rfl, rfl, .closed rfl⟩
  | debited | debitRefused | credited | creditRefused | refunded | refundRefused | finished
  | reported => simp [Stage.holds] at hσ

/-- The attempt with the latch goes on in the list `Held`, and a transfer that
has its last status keeps its row. -/
theorem Held.turn (hs : s.Sound) {r : Transfer} {ds : List Deed}
    (hr : s.transfers.get? id = some r) (hh : Held r ds σ) (h : Turn policy s id σ d τ s') :
    ∃ r', s'.transfers.get? id = some r' ∧ r.Ends r' ∧
      Held r' (ds ++ (d.filter Deed.binds).toList) τ := by
  cases hh with
  | closed hst =>
    cases h with
    | missing hnone _ => simp [hnone] at hr
    | late _ _ hearly => simp [Stage.isEarly] at hearly
    | reported hq =>
      rw [hr] at hq
      cases hq
      exact ⟨r, hr, .refl r, .reported hst⟩
  | reported hst =>
    cases h with
    | missing hnone _ => simp [hnone] at hr
    | late _ _ hearly => simp [Stage.isEarly] at hearly
    | ended => exact ⟨r, hr, .refl r, by simpa using Held.reported hst⟩
  | settled hst hm =>
    cases h with
    | missing hnone _ => simp [hnone] at hr
    | late _ _ hearly => simp [Stage.isEarly] at hearly
    | ended => exact ⟨_, hr, .refl _, by simpa using Held.settled hst hm⟩
  | moving hst hm =>
    cases h with
    | missing hnone _ => simp [hnone] at hr
    | late _ _ hearly =>
      cases hm <;> simp [Stage.isEarly] at hearly
    | debited h =>
      cases hm
      obtain ⟨-, -, hpos, -⟩ := Ledger.debit_eq_ok.mp h
      exact ⟨r, by rw [Ledger.transfers_debit h, hr], .refl r, .moving hst (.debited hpos)⟩
    | debitRefused h =>
      cases hm
      exact ⟨r, hr, .refl r, .moving hst .debitRefused⟩
    | credited h =>
      cases hm with
      | debited hpos =>
        exact ⟨r, by rw [Ledger.transfers_credit h, hr], .refl r, .moving hst (.credited hpos)⟩
    | creditRefused h =>
      cases hm with
      | debited hpos => exact ⟨r, hr, .refl r, .moving hst (.creditRefused hpos)⟩
    | refunded h =>
      cases hm with
      | creditRefused hpos =>
        exact ⟨r, by rw [Ledger.transfers_credit h, hr], .refl r, .moving hst (.refunded hpos)⟩
    | refundRefused h =>
      cases hm with
      | creditRefused hpos => exact ⟨r, hr, .refl r, .moving hst (.refundRefused hpos)⟩
    | finished hq =>
      rw [hr] at hq
      cases hq
      exact ⟨_, hs.get?_rewrite hr rfl, .inr ⟨hst, _, rfl⟩, .settled hst hm⟩
    | waits | ended | opened | unlinked | counted | claimed | closed | reported => cases hm

end Turns

/-! ### Every run -/

namespace World

/-- Nobody has flipped the latch of `t`, and nothing was done under it. -/
structure Free (w : World) (t : Nat) : Prop where
  row : ∀ r, w.store.transfers.get? t = some r → r.isProcessed = false ∧ r.status = .pending
  deeds : w.deeds t = []
  early : ∀ {i : Nat} {a : Attempt}, w.attempts[i]? = some a → a.transfer = t →
    a.stage.holds = false

/-- The attempt `i` has flipped the latch of `t`, whose row is `r` now. -/
structure Taken (w : World) (t i : Nat) (r : Transfer) (σ : Stage) : Prop where
  row : w.store.transfers.get? t = some r
  processed : r.isProcessed = true
  holder : w.attempts[i]? = some { transfer := t, stage := σ }
  held : Held r (w.deeds t) σ
  only : ∀ {j : Nat} {a : Attempt}, w.attempts[j]? = some a → a.transfer = t →
    a.stage.holds = true → j = i

def Latched (w : World) (t : Nat) : Prop := w.Free t ∨ ∃ i r σ, w.Taken t i r σ

theorem Taken.stage_eq {w : World} {t i : Nat} {r : Transfer} {σ : Stage} {a : Attempt}
    (h : w.Taken t i r σ) (ha : w.attempts[i]? = some a) : a.stage = σ := by
  have hholder := h.holder
  rw [ha] at hholder
  exact congrArg Attempt.stage (Option.some.inj hholder)

theorem Latched.taken {w : World} {t : Nat} {r : Transfer} (h : w.Latched t)
    (hr : w.store.transfers.get? t = some r) (hp : r.isProcessed = true) :
    ∃ i σ, w.Taken t i r σ := by
  rcases h with hf | ⟨i, q, σ, htaken⟩
  · exact absurd (hf.row r hr).1 (by simp [hp])
  · have hq := htaken.row
    rw [hr] at hq
    cases hq
    exact ⟨i, σ, htaken⟩

/-- The store is sound, and each transfer is free or taken by one attempt. -/
structure Inv (w : World) : Prop where
  sound : w.store.Sound
  latched : ∀ t, w.Latched t

theorem inv_empty : empty.Inv where
  sound := Store.sound_empty
  latched t :=
    .inl ⟨fun r h => by simp [empty, Store.empty] at h, rfl, fun h => by simp [empty] at h⟩

variable {policy : Policy} {w w' : World} {t : Nat}

theorem Latched.frame (h : w.Latched t)
    (hrow : w'.store.transfers.get? t = w.store.transfers.get? t) (hdeeds : w'.deeds t = w.deeds t)
    (hold : ∀ {i : Nat} {a : Attempt}, w.attempts[i]? = some a → a.transfer = t →
      a.stage.holds = true → w'.attempts[i]? = some a)
    (hnew : ∀ {i : Nat} {a : Attempt}, w'.attempts[i]? = some a → a.transfer = t →
      a.stage.holds = true → w.attempts[i]? = some a) : w'.Latched t := by
  rcases h with hf | ⟨i, r, σ, ht⟩
  · refine .inl ⟨by rw [hrow]; exact hf.row, by rw [hdeeds]; exact hf.deeds, fun {i a} ha hat => ?_⟩
    cases hholds : a.stage.holds with
    | false => rfl
    | true => exact absurd (hf.early (hnew ha hat hholds) hat) (by simp [hholds])
  · exact .inr ⟨i, r, σ, by rw [hrow]; exact ht.row, ht.processed, hold ht.holder rfl ht.held.holds,
      by rw [hdeeds]; exact ht.held, fun ha hat hholds => ht.only (hnew ha hat hholds) hat hholds⟩

theorem deeds_goOn (i : Nat) (a : Attempt) (d : Option Deed) (τ : Stage) (store : Store) (t : Nat) :
    (w.goOn i a d τ store).deeds t =
      w.deeds t ++ if a.transfer = t then (d.filter Deed.binds).toList else [] := by
  show (w.log ++ (d.map (Entry.deed i a.transfer)).toList).filterMap (Entry.deedOn? t) = _
  rw [List.filterMap_append]
  congr 1
  cases d with
  | none => simp
  | some d =>
    by_cases ht : a.transfer = t
    · cases hb : d.binds <;> simp [Entry.deedOn?, Option.filter, ht, hb]
    · simp [Entry.deedOn?, ht]

section Attempts

variable {i j : Nat} {a b : Attempt} {d : Option Deed} {τ : Stage} {store : Store}

theorem attempts_goOn (hb : (w.goOn i a d τ store).attempts[j]? = some b) :
    (j = i ∧ b = { a with stage := τ }) ∨ (j ≠ i ∧ w.attempts[j]? = some b) := by
  have hb : (w.attempts.set i { a with stage := τ })[j]? = some b := hb
  rw [List.getElem?_set] at hb
  split at hb
  · rename_i hij
    split at hb
    · exact .inl ⟨hij.symm, (Option.some.inj hb).symm⟩
    · cases hb
  · rename_i hij
    exact .inr ⟨fun h => hij h.symm, hb⟩

theorem attempts_goOn_self (ha : w.attempts[i]? = some a) :
    (w.goOn i a d τ store).attempts[i]? = some { a with stage := τ } := by
  show (w.attempts.set i _)[i]? = _
  rw [List.getElem?_set_self]
  exact (List.getElem?_eq_some_iff.mp ha).1

theorem attempts_goOn_ne (hb : w.attempts[j]? = some b) (hij : j ≠ i) :
    (w.goOn i a d τ store).attempts[j]? = some b := by
  show (w.attempts.set i _)[j]? = _
  rw [List.getElem?_set_ne (fun h => hij h.symm), hb]

end Attempts

section Own

variable {i : Nat} {a : Attempt} {d : Option Deed} {τ : Stage} {s' : Store}

theorem deeds_goOn_self :
    (w.goOn i a d τ s').deeds a.transfer = w.deeds a.transfer ++ (d.filter Deed.binds).toList := by
  rw [deeds_goOn, if_pos rfl]

theorem Free.goOn (hs : w.store.Sound) (ha : w.attempts[i]? = some a) (h : w.Free a.transfer)
    (hturn : Turn policy w.store a.transfer a.stage d τ s') :
    (w.goOn i a d τ s').Latched a.transfer := by
  rcases hturn.of_free hs h.row (h.early ha rfl) with
    ⟨hd, hτ, hrow⟩ | ⟨r, d', hr, hp, hd, hb, hheld⟩
  · refine .inl ⟨hrow, ?_, fun hb hbt => ?_⟩
    · rw [deeds_goOn_self, hd, h.deeds]
      rfl
    · rcases attempts_goOn hb with ⟨-, rfl⟩ | ⟨-, hb⟩
      · exact hτ
      · exact h.early hb hbt
  · refine .inr ⟨i, r, τ, hr, hp, attempts_goOn_self ha, ?_, fun hb' hbt hholds => ?_⟩
    · rw [deeds_goOn_self, h.deeds, hd]
      simpa [Option.filter, hb] using hheld
    · rcases attempts_goOn hb' with ⟨hij, -⟩ | ⟨-, hb'⟩
      · exact hij
      · have hearly := h.early hb' hbt
        simp [hholds] at hearly

theorem Taken.goOn_holder {r : Transfer} {σ : Stage} (hs : w.store.Sound)
    (ha : w.attempts[i]? = some a) (h : w.Taken a.transfer i r σ)
    (hturn : Turn policy w.store a.transfer a.stage d τ s') :
    ∃ r', (w.goOn i a d τ s').Taken a.transfer i r' τ := by
  obtain ⟨r', hr', hends, hheld⟩ := h.held.turn hs h.row (h.stage_eq ha ▸ hturn)
  have hp' : r'.isProcessed = true := by rw [hends.isProcessed_eq, h.processed]
  refine ⟨r', hr', hp', attempts_goOn_self ha, ?_, fun hb hbt hbh => ?_⟩
  · rw [deeds_goOn_self]
    exact hheld
  · rcases attempts_goOn hb with ⟨hij, -⟩ | ⟨-, hb⟩
    · exact hij
    · exact h.only hb hbt hbh

theorem Taken.goOn_other {j : Nat} {r : Transfer} {σ : Stage} (ha : w.attempts[i]? = some a)
    (h : w.Taken a.transfer j r σ) (hh : a.stage.holds = false)
    (hturn : Turn policy w.store a.transfer a.stage d τ s') :
    (w.goOn i a d τ s').Latched a.transfer := by
  obtain ⟨rfl, rfl, hτ⟩ := hturn.of_processed h.row h.processed hh
  refine Latched.frame (.inr ⟨j, r, σ, h⟩) rfl ?_ (fun {k b} hb hbt hbh => ?_)
    (fun hb hbt hbh => ?_)
  · rw [deeds_goOn_self]
    exact List.append_nil _
  · refine attempts_goOn_ne hb fun hk => ?_
    subst hk
    rw [ha] at hb
    cases hb
    simp [hh] at hbh
  · rcases attempts_goOn hb with ⟨-, rfl⟩ | ⟨-, hb⟩
    · simp [hτ] at hbh
    · exact hb

theorem Latched.goOn_self (hs : w.store.Sound) (ha : w.attempts[i]? = some a)
    (h : w.Latched a.transfer) (hturn : Turn policy w.store a.transfer a.stage d τ s') :
    (w.goOn i a d τ s').Latched a.transfer := by
  rcases h with hf | ⟨j, r, σ, ht⟩
  · exact hf.goOn hs ha hturn
  · cases hholds : a.stage.holds with
    | true =>
      obtain rfl : i = j := ht.only ha rfl hholds
      obtain ⟨r', ht'⟩ := ht.goOn_holder hs ha hturn
      exact .inr ⟨i, r', τ, ht'⟩
    | false => exact ht.goOn_other ha hholds hturn

end Own

theorem Latched.goOn_ne {i : Nat} {a : Attempt} {d : Option Deed} {τ : Stage} {s' : Store}
    (ha : w.attempts[i]? = some a) (h : w.Latched t) (hne : a.transfer ≠ t)
    (hrow : s'.transfers.get? t = w.store.transfers.get? t) : (w.goOn i a d τ s').Latched t := by
  refine h.frame hrow ?_ (fun {k b} hb hbt _ => ?_) (fun hb hbt _ => ?_)
  · rw [deeds_goOn, if_neg hne, List.append_nil]
  · refine attempts_goOn_ne hb fun hk => hne ?_
    subst hk
    rw [ha] at hb
    cases hb
    exact hbt
  · rcases attempts_goOn hb with ⟨-, rfl⟩ | ⟨-, hb⟩
    · exact absurd hbt hne
    · exact hb

theorem deeds_of_not_act (policy : Policy) (w : World) {e : Event} (h : ∀ i, e ≠ .act i) (t : Nat) :
    (w.step policy e).deeds t = w.deeds t := by
  cases e with
  | act i => exact absurd rfl (h i)
  | answer i depth =>
    obtain hsame | ⟨a, tx, -, -, hstep⟩ := step_answer policy w i depth
    · rw [hsame]
    · rw [hstep, deeds_goOn]
      split
      · exact List.append_nil _
      · exact List.append_nil _
  | link t' tx =>
    obtain hsame | ⟨r, -, -, hstep⟩ := step_link policy w t' tx
    · rw [hsame]
    · rw [hstep]
      show (w.log ++ [Entry.linked t' tx]).filterMap (Entry.deedOn? t) = _
      rw [List.filterMap_append]
      exact List.append_nil _
  | begin _ | ledger _ | create _ | payments _ => rfl

theorem attempts_of_not_act (policy : Policy) (w : World) {e : Event} (h : ∀ i, e ≠ .act i)
    {i : Nat} {a : Attempt} (hh : a.stage.holds = true) :
    (w.step policy e).attempts[i]? = some a ↔ w.attempts[i]? = some a := by
  cases e with
  | act i => exact absurd rfl (h i)
  | begin t =>
    show (w.attempts ++ [.start t])[i]? = some a ↔ _
    rw [List.getElem?_append]
    split
    · exact Iff.rfl
    · rename_i hi
      rw [List.getElem?_eq_none_iff.mpr (Nat.le_of_not_lt hi)]
      refine iff_of_false (fun hnew => ?_) (by simp)
      rw [List.getElem?_singleton] at hnew
      split at hnew
      · rw [← Option.some.inj hnew] at hh
        simp [start, Stage.holds] at hh
      · cases hnew
  | answer j depth =>
    obtain hsame | ⟨b, tx, hb, hs, hstep⟩ := step_answer policy w j depth
    · rw [hsame]
    · rw [hstep]
      constructor
      · intro ha
        obtain ⟨-, rfl⟩ | ⟨-, ha⟩ := attempts_goOn ha
        · simp [Stage.holds_of_early (isEarly_decide policy depth)] at hh
        · exact ha
      · intro ha
        refine attempts_goOn_ne ha fun hij => ?_
        subst hij
        rw [hb] at ha
        cases ha
        simp [hs, Stage.holds] at hh
  | link t tx =>
    obtain hsame | ⟨r, -, -, hstep⟩ := step_link policy w t tx
    · rw [hsame]
    · rw [hstep]
  | ledger _ | create _ | payments _ => exact Iff.rfl

theorem Latched.other (hi : w.store.Sound) (h : w.Latched t) {e : Event} (he : ∀ i, e ≠ .act i) :
    (w.step policy e).Latched t := by
  have hdeeds := deeds_of_not_act policy w he t
  have hrow := row_of_other policy hi he t
  have hsame : (w.step policy e).store.transfers.get? t = w.store.transfers.get? t →
      (w.step policy e).Latched t := fun hrow =>
    h.frame hrow hdeeds (fun ha _ hh => (attempts_of_not_act policy w he hh).mpr ha)
      (fun ha _ hh => (attempts_of_not_act policy w he hh).mp ha)
  have hfree : w.Free t → (∀ r, (w.step policy e).store.transfers.get? t = some r →
      r.isProcessed = false ∧ r.status = .pending) → (w.step policy e).Latched t := by
    intro hf hrow
    refine .inl ⟨hrow, hdeeds.trans hf.deeds, fun {i a} ha hat => ?_⟩
    cases hh : a.stage.holds with
    | false => rfl
    | true =>
      have hearly := hf.early ((attempts_of_not_act policy w he hh).mp ha) hat
      rw [hh] at hearly
      exact hearly
  obtain hrow | ⟨hnone, r, hr, hp, hs⟩ | ⟨r, tx, -, hr, hp, hr'⟩ := hrow
  · exact hsame hrow
  · -- the number of a new transfer was in nobody's hands
    rcases h with hf | ⟨i, q, σ, htaken⟩
    · refine hfree hf fun q hq => ?_
      rw [hr] at hq
      cases hq
      exact ⟨hp, hs⟩
    · rw [htaken.row] at hnone
      cases hnone
  · rcases h with hf | ⟨i, q, σ, htaken⟩
    · refine hfree hf fun q hq => ?_
      rw [hr'] at hq
      cases hq
      exact hf.row r hr
    · have hq := htaken.row
      rw [hr] at hq
      cases hq
      have hprocessed := htaken.processed
      simp [hp] at hprocessed

theorem latched_step (hi : w.Inv) (e : Event) (t : Nat) : (w.step policy e).Latched t := by
  have hl := hi.latched t
  by_cases hact : ∃ i, e = .act i
  · obtain ⟨i, rfl⟩ := hact
    cases ha : w.attempts[i]? with
    | none =>
      rw [step_act_none policy ha]
      exact hl
    | some a =>
      rw [step_act policy ha]
      have hturn := turn_step policy w.store a
      by_cases ht : a.transfer = t
      · subst ht
        exact hl.goOn_self hi.sound ha hturn
      · exact hl.goOn_ne ha ht (hturn.row_ne hi.sound fun h => ht h.symm)
  · exact hl.other hi.sound fun i hi => hact ⟨i, hi⟩

theorem inv_step (hi : w.Inv) (e : Event) : (w.step policy e).Inv :=
  ⟨sound_step e hi.sound, latched_step hi e⟩

theorem inv_run (policy : Policy) (events : List Event) : (empty.run policy events).Inv :=
  run_invariant (P := Inv) (fun _ e h => inv_step h e) inv_empty events

theorem row_step (policy : Policy) (hi : w.Inv) (e : Event) {r : Transfer}
    (hr : w.store.transfers.get? t = some r) (hp : r.isProcessed = true) :
    ∃ r', (w.step policy e).store.transfers.get? t = some r' ∧ r.Ends r' := by
  have same : ∀ {s : Store}, s.transfers.get? t = w.store.transfers.get? t →
      ∃ r', s.transfers.get? t = some r' ∧ r.Ends r' :=
    fun h => ⟨r, by rw [h, hr], .refl r⟩
  by_cases hact : ∃ i, e = .act i
  · obtain ⟨j, rfl⟩ := hact
    cases ha : w.attempts[j]? with
    | none =>
      rw [step_act_none policy ha]
      exact same rfl
    | some a =>
      rw [step_act policy ha]
      have hturn := turn_step policy w.store a
      by_cases ht : a.transfer = t
      · subst ht
        obtain ⟨i, σ, htaken⟩ := (hi.latched a.transfer).taken hr hp
        cases hholds : a.stage.holds with
        | true =>
          obtain rfl : j = i := htaken.only ha rfl hholds
          obtain ⟨r', hr', hends, -⟩ := htaken.held.turn hi.sound hr (htaken.stage_eq ha ▸ hturn)
          exact ⟨r', hr', hends⟩
        | false =>
          obtain ⟨-, hsame, -⟩ := hturn.of_processed hr hp hholds
          exact same (congrArg (fun s => s.transfers.get? a.transfer) hsame)
      · exact same (hturn.row_ne hi.sound fun h => ht h.symm)
  · have hother : ∀ i, e ≠ .act i := fun i hi => hact ⟨i, hi⟩
    obtain hrow | ⟨hnone, -⟩ | ⟨q, tx, -, hq, hopen, -⟩ := row_of_other policy hi.sound hother t
    · exact same hrow
    · rw [hr] at hnone
      cases hnone
    · rw [hr] at hq
      cases hq
      simp [hp] at hopen

end World

/-! ### At most once -/

namespace Deed

def isDebit : Deed → Bool
  | .debited _ _ => true
  | _ => false

def isCredit : Deed → Bool
  | .credited _ _ => true
  | _ => false

def isRefund : Deed → Bool
  | .refunded _ _ => true
  | _ => false

def isSettled : Deed → Bool
  | .settled _ => true
  | _ => false

end Deed

/-- The deeds done for the transfer `r` move its amount at most once each way,
from its source to its receiver, in the right order. -/
structure AtMostOnce (r : Transfer) (ds : List Deed) : Prop where
  debits : ds.countP Deed.isDebit ≤ 1
  credits : ds.countP Deed.isCredit ≤ 1
  refunds : ds.countP Deed.isRefund ≤ 1
  settles : ds.countP Deed.isSettled ≤ 1
  debit_of : ∀ {wallet amount}, .debited wallet amount ∈ ds → wallet = r.source ∧ amount = r.amount
  credit_of : ∀ {wallet amount}, .credited wallet amount ∈ ds →
    wallet = r.receiver ∧ amount = r.amount
  refund_of : ∀ {wallet amount}, .refunded wallet amount ∈ ds →
    wallet = r.source ∧ amount = r.amount
  credit_after : ∀ {before wallet amount after}, ds = before ++ .credited wallet amount :: after →
    .debited r.source r.amount ∈ before
  refund_after : ∀ {before wallet amount after}, ds = before ++ .refunded wallet amount :: after →
    .creditRefused ∈ before

theorem AtMostOnce.nil (r : Transfer) : AtMostOnce r [] := by
  constructor <;> simp

theorem mem_before {ds before after front back : List Deed} {x y : Deed} {p : Deed → Bool}
    (h : ds = before ++ y :: after) (hy : p y = true) (hds : ds = front ++ back)
    (hfront : ∀ d ∈ front, p d = false) (hx : x ∈ front) : x ∈ before := by
  have hlen : front.length ≤ before.length := by
    by_cases hlt : before.length < front.length
    · have hget : ds[before.length]? = some y := by simp [h]
      rw [hds, List.getElem?_append_left hlt] at hget
      have hno := hfront y (List.mem_of_getElem? hget)
      simp [hy] at hno
    · omega
  have htake : front = before.take front.length := by
    have h2 := congrArg (List.take front.length) (hds.symm.trans h)
    rw [List.take_left, List.take_append_of_le_length hlen] at h2
    exact h2
  rw [htake] at hx
  exact List.mem_of_mem_take hx

theorem AtMostOnce.of_append {r : Transfer} {ds rest : List Deed} (h : AtMostOnce r (ds ++ rest)) :
    AtMostOnce r ds where
  debits := Nat.le_trans (List.sublist_append_left ds rest).countP_le h.debits
  credits := Nat.le_trans (List.sublist_append_left ds rest).countP_le h.credits
  refunds := Nat.le_trans (List.sublist_append_left ds rest).countP_le h.refunds
  settles := Nat.le_trans (List.sublist_append_left ds rest).countP_le h.settles
  debit_of hd := h.debit_of (List.mem_append_left rest hd)
  credit_of hd := h.credit_of (List.mem_append_left rest hd)
  refund_of hd := h.refund_of (List.mem_append_left rest hd)
  credit_after {before wallet amount after} hds := by
    subst hds
    exact h.credit_after (List.append_assoc before (.credited wallet amount :: after) rest)
  refund_after {before wallet amount after} hds := by
    subst hds
    exact h.refund_after (List.append_assoc before (.refunded wallet amount :: after) rest)

theorem Moving.atMostOnce {r : Transfer} {ds : List Deed} {σ : Stage} (h : Moving r ds σ)
    (status : TransferStatus) : AtMostOnce r (ds ++ [.settled status]) := by
  have hcredit : ∀ {before wallet amount after},
      ds ++ [.settled status] = before ++ .credited wallet amount :: after →
      .debited r.source r.amount ∈ before := by
    intro before wallet amount after heq
    have hmem : Deed.credited wallet amount ∈ ds ++ [.settled status] := by simp [heq]
    cases h with
    | credited =>
      refine mem_before (p := Deed.isCredit) heq rfl
        (List.append_assoc [Deed.claimed, Deed.debited r.source r.amount] _ _) ?_ (by simp)
      simp [Deed.isCredit]
    | _ => simp at hmem
  have hrefund : ∀ {before wallet amount after},
      ds ++ [.settled status] = before ++ .refunded wallet amount :: after →
      .creditRefused ∈ before := by
    intro before wallet amount after heq
    have hmem : Deed.refunded wallet amount ∈ ds ++ [.settled status] := by simp [heq]
    cases h with
    | refunded =>
      refine mem_before (p := Deed.isRefund) heq rfl (List.append_assoc
        [Deed.claimed, Deed.debited r.source r.amount, Deed.creditRefused] _ _) ?_ (by simp)
      simp [Deed.isRefund]
    | _ => simp at hmem
  cases h <;>
    exact {
      debits := by simp [List.countP_cons, Deed.isDebit]
      credits := by simp [List.countP_cons, Deed.isCredit]
      refunds := by simp [List.countP_cons, Deed.isRefund]
      settles := by simp [List.countP_cons, Deed.isSettled]
      debit_of := by simp +contextual
      credit_of := by simp +contextual
      refund_of := by simp +contextual
      credit_after := hcredit
      refund_after := hrefund }

theorem AtMostOnce.closed (r : Transfer) (status : TransferStatus) :
    AtMostOnce r ([.closed] ++ [.settled status]) where
  debits := by simp [Deed.isDebit]
  credits := by simp [Deed.isCredit]
  refunds := by simp [Deed.isRefund]
  settles := by simp [List.countP_cons, Deed.isSettled]
  debit_of := by simp
  credit_of := by simp
  refund_of := by simp
  credit_after h := by simp [List.cons_eq_append_iff] at h
  refund_after h := by simp [List.cons_eq_append_iff] at h

theorem AtMostOnce.of_status {r : Transfer} {ds : List Deed} (h : AtMostOnce r ds)
    (status : TransferStatus) : AtMostOnce { r with status } ds :=
  ⟨h.debits, h.credits, h.refunds, h.settles, h.debit_of, h.credit_of, h.refund_of, h.credit_after,
    h.refund_after⟩

theorem Held.atMostOnce {r : Transfer} {ds : List Deed} {σ : Stage} (h : Held r ds σ) :
    AtMostOnce r ds := by
  cases h with
  | moving _ hm => exact (hm.atMostOnce .failed).of_append
  | settled _ hm => exact (hm.atMostOnce _).of_status _
  | closed _ => exact (AtMostOnce.closed r .failed).of_append
  | reported _ => exact .closed r _

namespace World

variable {policy : Policy} {w : World} {t : Nat}

theorem Latched.atMostOnce (h : w.Latched t) {r : Transfer}
    (hr : w.store.transfers.get? t = some r) : AtMostOnce r (w.deeds t) := by
  rcases h with hf | ⟨i, q, σ, htaken⟩
  · rw [hf.deeds]
    exact .nil r
  · have hq := htaken.row
    rw [hr] at hq
    cases hq
    exact htaken.held.atMostOnce

theorem Latched.deeds_of_none (h : w.Latched t) (hr : w.store.transfers.get? t = none) :
    w.deeds t = [] := by
  rcases h with hf | ⟨i, q, σ, htaken⟩
  · exact hf.deeds
  · have hq := htaken.row
    rw [hr] at hq
    cases hq

theorem row_run (policy : Policy) (hi : w.Inv) (events : List Event) {r : Transfer}
    (hr : w.store.transfers.get? t = some r) (hp : r.isProcessed = true) :
    ∃ r', (w.run policy events).store.transfers.get? t = some r' ∧ r.Ends r' := by
  induction events generalizing w r with
  | nil => exact ⟨r, hr, .refl r⟩
  | cons e events ih =>
    obtain ⟨q, hq, hrq⟩ := row_step policy hi e hr hp
    have hqp : q.isProcessed = true := by rw [hrq.isProcessed_eq, hp]
    obtain ⟨r', hr', hqr⟩ := ih (inv_step hi e) hq hqp
    exact ⟨r', hr', hrq.trans hqr⟩

theorem Latched.processed (h : w.Latched t) {r : Transfer}
    (hr : w.store.transfers.get? t = some r) (hs : r.status ≠ .pending) : r.isProcessed = true := by
  rcases h with hf | ⟨i, q, σ, htaken⟩
  · exact absurd (hf.row r hr).2 hs
  · have hq := htaken.row
    rw [hr] at hq
    cases hq
    exact htaken.processed

theorem Latched.settled_only (h : w.Latched t) {i j : Nat} {a b : Attempt} {r q : Transfer}
    (ha : w.attempts[i]? = some a) (hat : a.transfer = t) (has : a.stage = .done (.ok (.settled r)))
    (hb : w.attempts[j]? = some b) (hbt : b.transfer = t)
    (hbs : b.stage = .done (.ok (.settled q))) : i = j := by
  have hah : a.stage.holds = true := by rw [has]; rfl
  have hbh : b.stage.holds = true := by rw [hbs]; rfl
  rcases h with hf | ⟨k, p, σ, htaken⟩
  · exact absurd (hf.early ha hat) (by simp [hah])
  · exact (htaken.only ha hat hah).trans (htaken.only hb hbt hbh).symm

/-- **A transfer is settled at most once.** In every run, with every transaction and
every answer of the node a step of its own, the deeds done for a transfer debit its
source at most once, then credit its receiver at most once, or, when that was
refused, refund the source at most once, and the balances change by these deeds. At
most one attempt answers that the transfer is settled, and a flipped latch and a
last status stay as they are. -/
theorem settled_at_most_once (policy : Policy) (events later : List Event) (t : Nat) :
    let w := empty.run policy events
    (∀ r, w.store.transfers.get? t = some r → AtMostOnce r (w.deeds t)) ∧
    (w.store.transfers.get? t = none → w.deeds t = []) ∧
    (∀ i a k, w.attempts[i]? = some a → (w.step policy (.act i)).store.balance k =
      w.store.balance k + (a.deed? w.store).elim 0 (Deed.gain k)) ∧
    (∀ (i j : Nat) (a b : Attempt) (r q : Transfer), w.attempts[i]? = some a → a.transfer = t →
      a.stage = .done (.ok (.settled r)) → w.attempts[j]? = some b → b.transfer = t →
      b.stage = .done (.ok (.settled q)) → i = j) ∧
    (∀ r, w.store.transfers.get? t = some r → r.isProcessed = true →
      ∃ r', (w.run policy later).store.transfers.get? t = some r' ∧ r'.isProcessed = true) ∧
    (∀ r, w.store.transfers.get? t = some r → r.status ≠ .pending →
      (w.run policy later).store.transfers.get? t = some r) := by
  intro w
  have hi : w.Inv := inv_run policy events
  refine ⟨fun r hr => (hi.latched t).atMostOnce hr, (hi.latched t).deeds_of_none,
    fun i a k ha => ?_, fun i j a b r q => (hi.latched t).settled_only, fun r hr hp => ?_,
    fun r hr hs => ?_⟩
  · rw [step_act policy ha]
    exact (turn_step policy w.store a).balance hi.sound k
  · obtain ⟨r', hr', hends⟩ := row_run policy hi later hr hp
    exact ⟨r', hr', by rw [hends.isProcessed_eq, hp]⟩
  · obtain ⟨r', hr', hends⟩ := row_run policy hi later hr ((hi.latched t).processed hr hs)
    rw [hr', hends.eq_of_ne hs]

end World
end Clearing

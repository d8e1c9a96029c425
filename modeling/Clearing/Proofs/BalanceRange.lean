import Clearing.Proofs.Interleaving

/-!
# Balances stay in range

The ledger reckons with integers of any size here. Since all balances are in
range it answers what 64-bit integers answer: the sum of a credit is tested for
overflow, and the difference of a debit needs no test, because the balance is
not negative and not less than the amount.
-/

namespace Clearing

/-- The wallet has the balance `b`, and nothing else is changed. -/
structure Store.Rebalanced (s : Store) (id : Nat) (b : Int) (s' : Store) : Prop where
  row : s'.wallets.get? id = (s.wallets.get? id).map fun w => { w with balance := b }
  others : ∀ {k}, k ≠ id → s'.wallets.get? k = s.wallets.get? k
  rest : s' = { s with wallets := s'.wallets }

theorem Store.Sound.rebalanced_iff {s s' : Store} (hs : s.Sound) {id : Nat} {w : Wallet}
    (hw : s.wallets.get? id = some w) {b : Int} :
    s.Rebalanced id b s' ↔ s' = s.putWallet { w with balance := b } := by
  have hput : ∀ k, (s.putWallet { w with balance := b }).wallets.get? k =
      if k = id then some { w with balance := b } else s.wallets.get? k := by
    intro k
    rw [get?_putWallet]
    show (if k = w.id then _ else _) = _
    rw [hs.wallet_id hw]
  constructor
  · intro h
    have hwallets : s'.wallets = (s.putWallet { w with balance := b }).wallets := by
      refine Table.ext_get? fun k => ?_
      rw [hput]
      by_cases hk : k = id
      · rw [if_pos hk, hk, h.row, hw, Option.map_some]
      · rw [if_neg hk, h.others hk]
    rw [h.rest, hwallets]
    rfl
  · rintro rfl
    refine { row := ?_, others := fun hk => ?_, rest := rfl }
    · rw [hput, if_pos rfl, hw, Option.map_some]
    · rw [hput, if_neg hk]

namespace Ledger

def InRange (b : Int) : Prop := 0 ≤ b ∧ b ≤ maxInt64

theorem maxInt64_eq : (maxInt64 : Int) = 2 ^ 63 - 1 := rfl

variable {s s' : Store} {id : Nat} {amount b : Int}

theorem credit_iff (hs : s.Sound) :
    credit s id amount = .ok (b, s') ↔
      0 < amount ∧ ∃ w, s.wallets.get? id = some w ∧ b = w.balance + amount ∧ InRange b ∧
        s.Rebalanced id b s' := by
  rw [credit_eq_ok]
  constructor
  · rintro ⟨w, hw, hpos, hmax, rfl, hs'⟩
    have h0 := hs.balance_nonneg hw
    exact ⟨hpos, w, hw, rfl, ⟨by omega, hmax⟩, (hs.rebalanced_iff hw).mpr hs'⟩
  · rintro ⟨hpos, w, hw, rfl, hrange, hs'⟩
    exact ⟨w, hw, hpos, hrange.2, rfl, (hs.rebalanced_iff hw).mp hs'⟩

theorem debit_iff (hs : s.Sound) :
    debit s id amount = .ok (b, s') ↔
      0 < amount ∧ ∃ w, s.wallets.get? id = some w ∧ b = w.balance - amount ∧ InRange b ∧
        s.Rebalanced id b s' := by
  rw [debit_eq_ok]
  constructor
  · rintro ⟨w, hw, hpos, hholds, rfl, hs'⟩
    have hmax := hs.balance_le hw
    exact ⟨hpos, w, hw, rfl, ⟨by omega, by omega⟩, (hs.rebalanced_iff hw).mpr hs'⟩
  · rintro ⟨hpos, w, hw, rfl, hrange, hs'⟩
    exact ⟨w, hw, hpos, by have := hrange.1; omega, rfl, (hs.rebalanced_iff hw).mp hs'⟩

/-! ### Reckoning with 64-bit integers -/

/-- The sum, unless it overflows. -/
def checkedAdd (a b : Int64) : Option Int64 :=
  if a.toBitVec.saddOverflow b.toBitVec then none else some (a + b)

/-- The balance after a credit, as 64-bit integers give it. -/
def creditedInt64 (amount : Int64) (w : Wallet) : Except LedgerFault Int64 :=
  match checkedAdd (.ofInt w.balance) amount with
  | some b => .ok b
  | none => .error (.overflow w.id)

/-- The balance after a debit, as 64-bit integers give it. The difference is
not tested, so it would wrap around. -/
def debitedInt64 (amount : Int64) (w : Wallet) : Except LedgerFault Int64 :=
  if Int64.ofInt w.balance < amount then
    .error (.insufficient w.id (Int64.ofInt w.balance).toInt amount.toInt)
  else .ok (Int64.ofInt w.balance - amount)

def creditInt64 (s : Store) (id : Nat) (amount : Int64) : Except LedgerFault (Int × Store) :=
  if amount ≤ 0 then .error (.notPositive amount.toInt)
  else
    (s.rebalance .ofStore id fun w => (creditedInt64 amount w).map Int64.toInt).map fun r =>
      (r.1.balance, r.2)

def debitInt64 (s : Store) (id : Nat) (amount : Int64) : Except LedgerFault (Int × Store) :=
  if amount ≤ 0 then .error (.notPositive amount.toInt)
  else
    (s.rebalance .ofStore id fun w => (debitedInt64 amount w).map Int64.toInt).map fun r =>
      (r.1.balance, r.2)

section Machine

variable {w : Wallet} {amount : Int64}

theorem toInt_ofBalance (hw : InRange w.balance) : (Int64.ofInt w.balance).toInt = w.balance := by
  obtain ⟨h0, hmax⟩ := hw
  rw [maxInt64_eq] at hmax
  exact Int64.toInt_ofInt_of_le (by omega) (by omega)

/-- A sum with a positive amount overflows only upwards. -/
theorem checkedAdd_balance (hw : InRange w.balance) (hpos : 0 < amount.toInt) :
    (checkedAdd (.ofInt w.balance) amount).map Int64.toInt =
      if w.balance + amount.toInt ≤ maxInt64 then some (w.balance + amount.toInt) else none := by
  have hover : (Int64.ofInt w.balance).toBitVec.saddOverflow amount.toBitVec = true ↔
      ¬w.balance + amount.toInt ≤ maxInt64 := by
    have h0 := hw.1
    unfold BitVec.saddOverflow
    rw [Int64.toInt_toBitVec, Int64.toInt_toBitVec, toInt_ofBalance hw, maxInt64_eq]
    simp only [Nat.add_one_sub_one, ge_iff_le, Bool.or_eq_true, decide_eq_true_eq]
    omega
  unfold checkedAdd
  by_cases hmax : w.balance + amount.toInt ≤ maxInt64
  · have hfits : ¬(Int64.ofInt w.balance).toBitVec.saddOverflow amount.toBitVec = true :=
      fun h => hover.mp h hmax
    have hsum := BitVec.toInt_add_of_not_saddOverflow hfits
    rw [← Int64.toBitVec_add, Int64.toInt_toBitVec, Int64.toInt_toBitVec, Int64.toInt_toBitVec,
      toInt_ofBalance hw] at hsum
    rw [if_neg hfits, if_pos hmax, Option.map_some, hsum]
  · rw [if_pos (hover.mpr hmax), if_neg hmax, Option.map_none]

theorem not_ssubOverflow_balance (hw : InRange w.balance) (hpos : 0 < amount.toInt) :
    ¬(Int64.ofInt w.balance).toBitVec.ssubOverflow amount.toBitVec = true := by
  obtain ⟨h0, hmax⟩ := hw
  have hamount := amount.toInt_lt
  rw [maxInt64_eq] at hmax
  unfold BitVec.ssubOverflow
  rw [Int64.toInt_toBitVec, Int64.toInt_toBitVec, toInt_ofBalance ⟨h0, hmax⟩]
  simp only [Nat.add_one_sub_one, ge_iff_le, Bool.or_eq_true, decide_eq_true_eq]
  omega

theorem credited_eq_int64 (hw : InRange w.balance) (hpos : 0 < amount.toInt) :
    credited amount.toInt w = (creditedInt64 amount w).map Int64.toInt := by
  have hsum := checkedAdd_balance hw hpos
  unfold credited creditedInt64
  cases hc : checkedAdd (.ofInt w.balance) amount with
  | none =>
    rw [hc] at hsum
    split
    · rename_i hmax
      rw [if_pos hmax] at hsum
      cases hsum
    · rfl
  | some b =>
    rw [hc] at hsum
    split
    · rename_i hmax
      rw [if_pos hmax, Option.map_some] at hsum
      exact congrArg Except.ok (Option.some.inj hsum).symm
    · rename_i hmax
      rw [if_neg hmax] at hsum
      cases hsum

theorem debited_eq_int64 (hw : InRange w.balance) (hpos : 0 < amount.toInt) :
    debited amount.toInt w = (debitedInt64 amount w).map Int64.toInt := by
  have hdiff := BitVec.toInt_sub_of_not_ssubOverflow (not_ssubOverflow_balance hw hpos)
  rw [← Int64.toBitVec_sub, Int64.toInt_toBitVec, Int64.toInt_toBitVec, Int64.toInt_toBitVec,
    toInt_ofBalance hw] at hdiff
  have hlt : Int64.ofInt w.balance < amount ↔ w.balance < amount.toInt := by
    rw [Int64.lt_iff_toInt_lt, toInt_ofBalance hw]
  unfold debited debitedInt64
  rw [toInt_ofBalance hw]
  by_cases hshort : w.balance < amount.toInt
  · rw [if_pos hshort, if_pos (hlt.mpr hshort)]
    rfl
  · rw [if_neg hshort, if_neg (mt hlt.mp hshort), ← hdiff]
    rfl

theorem rebalance_congr {s : Store} {id : Nat} {f g : Wallet → Except LedgerFault Int}
    (h : ∀ {w}, s.wallets.get? id = some w → f w = g w) :
    s.rebalance LedgerFault.ofStore id f = s.rebalance LedgerFault.ofStore id g := by
  unfold Store.rebalance
  cases hw : s.wallet id with
  | error fault => rfl
  | ok w => simp only [h (Store.wallet_eq_ok.mp hw)]

theorem inRange_of_sound {s : Store} (hs : s.Sound) {id : Nat} (hw : s.wallets.get? id = some w) :
    InRange w.balance := ⟨hs.balance_nonneg hw, hs.balance_le hw⟩

theorem inRange_balance {s : Store} (hs : s.Sound) (id : Nat) : InRange (s.balance id) := by
  cases hw : s.wallets.get? id with
  | none =>
    unfold Store.balance
    rw [hw]
    exact ⟨Int.le_refl 0, Int.natCast_nonneg _⟩
  | some w =>
    rw [Store.balance_of_some hw]
    exact inRange_of_sound hs hw

theorem credit_eq_int64 {s : Store} (hs : s.Sound) (id : Nat) (amount : Int64) :
    credit s id amount.toInt = creditInt64 s id amount := by
  unfold credit creditInt64
  simp only [Int64.le_iff_toInt_le, Int64.toInt_zero]
  split
  · rfl
  · rename_i hpos
    rw [rebalance_congr fun hw => credited_eq_int64 (inRange_of_sound hs hw) (Int.not_le.mp hpos)]

theorem debit_eq_int64 {s : Store} (hs : s.Sound) (id : Nat) (amount : Int64) :
    debit s id amount.toInt = debitInt64 s id amount := by
  unfold debit debitInt64
  simp only [Int64.le_iff_toInt_le, Int64.toInt_zero]
  split
  · rfl
  · rename_i hpos
    rw [rebalance_congr fun hw => debited_eq_int64 (inRange_of_sound hs hw) (Int.not_le.mp hpos)]

end Machine
end Ledger

namespace World

/-- **Balances stay in range** in every run of ledger operations, transfers and
attempts that come in between each other. A credit or a debit goes through if and
only if its amount is positive, the wallet exists and the new balance is in range;
it writes that balance and nothing else, and answers what 64-bit integers answer.
The next transaction of an attempt changes each balance by its deed. -/
theorem balances_in_range (policy : Policy) (events : List Event) :
    let w := empty.run policy events
    (∀ id v, w.store.wallets.get? id = some v → Ledger.InRange v.balance) ∧
    (∀ id amount b s', Ledger.credit w.store id amount = .ok (b, s') ↔
      0 < amount ∧ ∃ v, w.store.wallets.get? id = some v ∧ b = v.balance + amount ∧
        Ledger.InRange b ∧ w.store.Rebalanced id b s') ∧
    (∀ id amount b s', Ledger.debit w.store id amount = .ok (b, s') ↔
      0 < amount ∧ ∃ v, w.store.wallets.get? id = some v ∧ b = v.balance - amount ∧
        Ledger.InRange b ∧ w.store.Rebalanced id b s') ∧
    (∀ id (amount : Int64),
      Ledger.credit w.store id amount.toInt = Ledger.creditInt64 w.store id amount ∧
      Ledger.debit w.store id amount.toInt = Ledger.debitInt64 w.store id amount) ∧
    ∀ i a k, w.attempts[i]? = some a →
      (w.step policy (.act i)).store.balance k =
        w.store.balance k + (a.deed? w.store).elim 0 (Deed.gain k) ∧
      Ledger.InRange ((w.step policy (.act i)).store.balance k) := by
  intro w
  have hs : w.store.Sound := sound_run events
  refine ⟨fun id v hv => Ledger.inRange_of_sound hs hv, fun id amount b s' => Ledger.credit_iff hs,
    fun id amount b s' => Ledger.debit_iff hs,
    fun id amount => ⟨Ledger.credit_eq_int64 hs id amount, Ledger.debit_eq_int64 hs id amount⟩,
    fun i a k ha => ⟨?_, Ledger.inRange_balance (sound_step (.act i) hs) k⟩⟩
  rw [step_act policy ha]
  exact (Attempt.turn_step policy w.store a).balance hs k

def fullWallet : List Event :=
  [.ledger (.openWallet { owner := 1, currency := "BTC", address := "a", isDefault := false }),
    .ledger (.setBalance 1 Int64.maxValue)]

/-- Not one unit more can be credited to it. -/
theorem balances_in_range_full :
    (Ledger.credit (empty.run .failFast fullWallet).store 1 1).isOk = false := by
  obtain ⟨-, hcredit, -⟩ := balances_in_range .failFast fullWallet
  cases h : Ledger.credit (empty.run .failFast fullWallet).store 1 1 with
  | error fault => rfl
  | ok r =>
    obtain ⟨-, v, hv, hb, hrange, -⟩ := (hcredit 1 1 r.1 r.2).mp h
    cases hv
    rw [hb] at hrange
    exact absurd hrange.2 (by decide)

end World
end Clearing

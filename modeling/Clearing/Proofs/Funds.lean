import Clearing.Ledger.Basic
import Clearing.Store.Transfers
import Mathlib.Algebra.Ring.Int.Defs

/-!
# The funds of a store

The funds are the balances of all wallets. A write to a row changes their sum
by the difference of the two balances, so every operation of the ledger can be
said by what it adds. This needs the rows to stand under their own numbers and
no number to be given out twice; `Store.Sound` says so, and that every balance
fits in 64 bits and is not negative.
-/

namespace Clearing

/-! ### Sums over a table -/

namespace Table

variable {κ α : Type} [Ord κ]

def total (f : α → Int) (t : Table κ α) : Int := (t.rows.map f).sum

theorem total_eq (f : α → Int) (t : Table κ α) :
    t.total f = (t.entries.map fun e => f e.2).sum := by
  simp only [total, rows, List.map_map]
  rfl

variable [Std.TransOrd κ] [Std.LawfulEqOrd κ]

/-- A row that is put in counts in full, less the row it replaces. -/
theorem sum_put (f : α → Int) (k : κ) (v : α) {es : List (κ × α)}
    (h : es.Pairwise fun a b => compare a.1 b.1 = .lt) :
    ((put k v es).map fun e => f e.2).sum =
      (es.map fun e => f e.2).sum + f v - (find k es).elim 0 f := by
  induction es with
  | nil => simp [put, find]
  | cons e es ih =>
    cases h with
    | cons hlt hes =>
      unfold put
      split
      next hk =>
        have hnone : find k (e :: es) = none := by
          refine find_eq_none fun a ha hak => ?_
          have hka : compare k a.1 = .lt := by
            rcases List.mem_cons.mp ha with rfl | ha
            · exact hk
            · exact Std.TransCmp.lt_trans hk (hlt a ha)
          simp [hak] at hka
        rw [hnone]
        simp only [List.map_cons, List.sum_cons, Option.elim_none]
        omega
      next hk =>
        simp only [find, hk, if_true, List.map_cons, List.sum_cons, Option.elim_some]
        omega
      next hk =>
        have hne : compare k e.1 ≠ .eq := by simp [hk]
        simp only [find, hne, if_false, List.map_cons, List.sum_cons, ih hes]
        omega

omit [Std.TransOrd κ] [Std.LawfulEqOrd κ] in
theorem sum_drop (f : α → Int) (k : κ) (es : List (κ × α)) :
    ((drop k es).map fun e => f e.2).sum =
      (es.map fun e => f e.2).sum - (find k es).elim 0 f := by
  induction es with
  | nil => simp [drop, find]
  | cons e es ih =>
    unfold drop
    by_cases hk : compare k e.1 = .eq
    · simp only [find, hk, if_true, List.map_cons, List.sum_cons, Option.elim_some]
      omega
    · simp only [find, hk, if_false, List.map_cons, List.sum_cons, ih]
      omega

theorem total_insert (f : α → Int) (t : Table κ α) (k : κ) (v : α) :
    (t.insert k v).total f = t.total f + f v - (t.get? k).elim 0 f := by
  rw [total_eq, total_eq]
  exact sum_put f k v t.sorted

omit [Std.TransOrd κ] [Std.LawfulEqOrd κ] in
theorem total_erase (f : α → Int) (t : Table κ α) (k : κ) :
    (t.erase k).total f = t.total f - (t.get? k).elim 0 f := by
  rw [total_eq, total_eq]
  exact sum_drop f k t.entries

end Table

namespace Store

/-- The balance of a wallet, zero if there is no such wallet. -/
def balance (s : Store) (id : Nat) : Int := (s.wallets.get? id).elim 0 Wallet.balance

def funds (s : Store) : Int := s.wallets.total Wallet.balance

theorem balance_of_some {s : Store} {id : Nat} {w : Wallet} (h : s.wallets.get? id = some w) :
    s.balance id = w.balance := by
  simp [balance, h]

theorem balance_putWallet (s : Store) (w : Wallet) (id : Nat) :
    (s.putWallet w).balance id = if id = w.id then w.balance else s.balance id := by
  unfold balance
  rw [get?_putWallet]
  split <;> rfl

theorem funds_putWallet (s : Store) (w : Wallet) :
    (s.putWallet w).funds = s.funds + w.balance - s.balance w.id :=
  Table.total_insert ..

/-! ### Sound stores -/

/-- Every row stands under its own number, which was given out, and every
balance is one that the ledger can hold. -/
structure Sound (s : Store) : Prop where
  wallet_id : ∀ {k w}, s.wallets.get? k = some w → w.id = k
  wallet_le : ∀ {k w}, s.wallets.get? k = some w → k ≤ s.lastWallet
  balance_nonneg : ∀ {k w}, s.wallets.get? k = some w → 0 ≤ w.balance
  balance_le : ∀ {k w}, s.wallets.get? k = some w → w.balance ≤ maxInt64
  transfer_id : ∀ {k t}, s.transfers.get? k = some t → t.id = k
  transfer_le : ∀ {k t}, s.transfers.get? k = some t → k ≤ s.lastTransfer

theorem sound_empty : empty.Sound := by
  constructor <;> intro k _ h <;> simp [empty] at h

theorem Sound.congr {s s' : Store} (h : s.Sound) (hw : s'.wallets = s.wallets)
    (ht : s'.transfers = s.transfers) (hlw : s'.lastWallet = s.lastWallet)
    (hlt : s'.lastTransfer = s.lastTransfer) : s'.Sound where
  wallet_id := by rw [hw]; exact h.wallet_id
  wallet_le := by rw [hw, hlw]; exact h.wallet_le
  balance_nonneg := by rw [hw]; exact h.balance_nonneg
  balance_le := by rw [hw]; exact h.balance_le
  transfer_id := by rw [ht]; exact h.transfer_id
  transfer_le := by rw [ht, hlt]; exact h.transfer_le

theorem Sound.putWallet {s : Store} (h : s.Sound) {w : Wallet} (hid : w.id ≤ s.lastWallet)
    (h0 : 0 ≤ w.balance) (hmax : w.balance ≤ maxInt64) : (s.putWallet w).Sound := by
  have row : ∀ {k v}, (s.putWallet w).wallets.get? k = some v →
      (k = w.id ∧ v = w) ∨ s.wallets.get? k = some v := by
    intro k v hv
    rw [get?_putWallet] at hv
    split at hv
    · rename_i hk
      exact .inl ⟨hk, (Option.some.inj hv).symm⟩
    · exact .inr hv
  refine ⟨fun hv => ?_, fun hv => ?_, fun hv => ?_, fun hv => ?_, h.transfer_id, h.transfer_le⟩
  · rcases row hv with ⟨rfl, rfl⟩ | hv
    · rfl
    · exact h.wallet_id hv
  · rcases row hv with ⟨rfl, rfl⟩ | hv
    · exact hid
    · exact h.wallet_le hv
  · rcases row hv with ⟨rfl, rfl⟩ | hv
    · exact h0
    · exact h.balance_nonneg hv
  · rcases row hv with ⟨rfl, rfl⟩ | hv
    · exact hmax
    · exact h.balance_le hv

theorem Sound.putTransfer {s : Store} (h : s.Sound) {t : Transfer} (hid : t.id ≤ s.lastTransfer) :
    (s.putTransfer t).Sound := by
  refine ⟨h.wallet_id, h.wallet_le, h.balance_nonneg, h.balance_le, fun hv => ?_, fun hv => ?_⟩
  · rw [get?_putTransfer] at hv
    split at hv
    · rename_i hk
      rw [← Option.some.inj hv, hk]
    · exact h.transfer_id hv
  · rw [get?_putTransfer] at hv
    split at hv
    · rename_i hk
      rw [hk]
      exact hid
    · exact h.transfer_le hv

theorem Sound.rewrite {s : Store} (h : s.Sound) {k : Nat} {t t' : Transfer}
    (ht : s.transfers.get? k = some t) (hid : t'.id = t.id) : (s.putTransfer t').Sound :=
  h.putTransfer (by rw [hid, h.transfer_id ht]; exact h.transfer_le ht)

theorem Sound.get?_rewrite {s : Store} (h : s.Sound) {k : Nat} {t t' : Transfer}
    (ht : s.transfers.get? k = some t) (hid : t'.id = t.id) :
    (s.putTransfer t').transfers.get? k = some t' := by
  rw [get?_putTransfer, if_pos]
  rw [hid, h.transfer_id ht]

theorem Sound.eq_of_rewrite {s : Store} (h : s.Sound) {k : Nat} {t t' u : Transfer}
    (ht : s.transfers.get? k = some t) (hu : (s.putTransfer t').transfers.get? k = some u)
    (hid : t'.id = t.id) : t' = u := by
  rw [h.get?_rewrite ht hid] at hu
  exact Option.some.inj hu

theorem Sound.fresh_wallet {s : Store} (h : s.Sound) :
    s.wallets.get? (s.lastWallet + 1) = none := by
  cases hw : s.wallets.get? (s.lastWallet + 1) with
  | none => rfl
  | some w =>
    have := h.wallet_le hw
    omega

theorem Sound.fresh_transfer {s : Store} (h : s.Sound) :
    s.transfers.get? (s.lastTransfer + 1) = none := by
  cases ht : s.transfers.get? (s.lastTransfer + 1) with
  | none => rfl
  | some t =>
    have := h.transfer_le ht
    omega

/-! ### What a transaction on a balance does -/

theorem wallet_eq_ok {s : Store} {id : Nat} {w : Wallet} :
    s.wallet id = .ok w ↔ s.wallets.get? id = some w := by
  unfold wallet
  cases s.wallets.get? id <;> simp

theorem transfer_eq_ok {s : Store} {id : Nat} {t : Transfer} :
    s.transfer id = .ok t ↔ s.transfers.get? id = some t := by
  unfold transfer
  cases s.transfers.get? id <;> simp

theorem rebalance_eq_ok {ε : Type} {s s' : Store} {ofStore : StoreFault → ε} {id : Nat}
    {compute : Wallet → Except ε Int} {w : Wallet} :
    s.rebalance ofStore id compute = .ok (w, s') ↔
      ∃ v b, s.wallets.get? id = some v ∧ compute v = .ok b ∧
        w = { v with balance := b } ∧ s' = s.putWallet { v with balance := b } := by
  unfold rebalance
  constructor
  · intro h
    cases hv : s.wallet id with
    | error fault => simp [hv] at h
    | ok v =>
      cases hb : compute v with
      | error fault => simp [hv, hb] at h
      | ok b =>
        simp only [hv, hb, Except.ok.injEq, Prod.mk.injEq] at h
        exact ⟨v, b, wallet_eq_ok.mp hv, hb, h.1.symm, h.2.symm⟩
  · rintro ⟨v, b, hv, hb, rfl, rfl⟩
    rw [wallet_eq_ok.mpr hv]
    simp only [hb]

end Store

namespace Ledger

open Store

theorem credit_eq_ok {s s' : Store} {id : Nat} {amount b : Int} :
    credit s id amount = .ok (b, s') ↔
      ∃ w, s.wallets.get? id = some w ∧ 0 < amount ∧ w.balance + amount ≤ maxInt64 ∧
        b = w.balance + amount ∧ s' = s.putWallet { w with balance := w.balance + amount } := by
  unfold credit
  constructor
  · intro h
    split at h
    · cases h
    · rename_i hpos
      cases hr : s.rebalance .ofStore id (credited amount) with
      | error fault => simp [hr, Except.map] at h
      | ok r =>
        obtain ⟨v, c, hv, hc, h1, h2⟩ := rebalance_eq_ok.mp hr
        simp only [hr, Except.map, Except.ok.injEq, Prod.mk.injEq] at h
        unfold credited at hc
        split at hc
        · rename_i hfits
          simp only [Except.ok.injEq] at hc
          subst hc
          exact ⟨v, hv, by omega, hfits, by rw [← h.1, h1], by rw [← h.2, h2]⟩
        · cases hc
  · rintro ⟨w, hw, hpos, hfits, rfl, rfl⟩
    have hc : credited amount w = .ok (w.balance + amount) := if_pos hfits
    have hr : s.rebalance .ofStore id (credited amount) = .ok (_, _) :=
      rebalance_eq_ok.mpr ⟨w, _, hw, hc, rfl, rfl⟩
    rw [if_neg (by omega), hr]
    rfl

theorem debit_eq_ok {s s' : Store} {id : Nat} {amount b : Int} :
    debit s id amount = .ok (b, s') ↔
      ∃ w, s.wallets.get? id = some w ∧ 0 < amount ∧ amount ≤ w.balance ∧
        b = w.balance - amount ∧ s' = s.putWallet { w with balance := w.balance - amount } := by
  unfold debit
  constructor
  · intro h
    split at h
    · cases h
    · rename_i hpos
      cases hr : s.rebalance .ofStore id (debited amount) with
      | error fault => simp [hr, Except.map] at h
      | ok r =>
        obtain ⟨v, c, hv, hc, h1, h2⟩ := rebalance_eq_ok.mp hr
        simp only [hr, Except.map, Except.ok.injEq, Prod.mk.injEq] at h
        unfold debited at hc
        split at hc
        · cases hc
        · rename_i hholds
          simp only [Except.ok.injEq] at hc
          subst hc
          exact ⟨v, hv, by omega, by omega, by rw [← h.1, h1], by rw [← h.2, h2]⟩
  · rintro ⟨w, hw, hpos, hholds, rfl, rfl⟩
    have hc : debited amount w = .ok (w.balance - amount) := if_neg (by omega)
    have hr : s.rebalance .ofStore id (debited amount) = .ok (_, _) :=
      rebalance_eq_ok.mpr ⟨w, _, hw, hc, rfl, rfl⟩
    rw [if_neg (by omega), hr]
    rfl

theorem setBalance_eq_ok {s s' : Store} {id : Nat} {b : Int} {w : Wallet} :
    setBalance s id b = .ok (w, s') ↔
      0 ≤ b ∧ ∃ v, s.wallets.get? id = some v ∧ w = { v with balance := b } ∧
        s' = s.putWallet { v with balance := b } := by
  unfold setBalance
  split
  · simp only [reduceCtorEq, false_iff, not_and]
    intro h
    omega
  · rw [rebalance_eq_ok]
    constructor
    · rintro ⟨v, c, hv, hc, hw, hs⟩
      cases hc
      exact ⟨by omega, v, hv, hw, hs⟩
    · rintro ⟨-, v, hv, hw, hs⟩
      exact ⟨v, b, hv, rfl, hw, hs⟩

end Ledger
end Clearing

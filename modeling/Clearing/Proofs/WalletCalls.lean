import Clearing.Proofs.Funds

/-!
# Calls that write wallets

The store is asked to open, change, flag or close a wallet, or to set its
balance; each call is one transaction, and one that fails writes nothing. When
a call goes through and what it leaves behind is told by one lemma each. The
payments and the transfers are left alone by all of them.
-/

namespace Clearing

/-- The store that a transaction leaves; a fault leaves the old one. -/
def Store.after {ε α : Type} (s : Store) (r : Except ε (α × Store)) : Store :=
  match r with
  | .ok (_, s') => s'
  | .error _ => s

theorem Store.after_of {ε α : Type} {P : Store → Prop} {s : Store} {r : Except ε (α × Store)}
    (hs : P s) (hok : ∀ {a s'}, r = .ok (a, s') → P s') : P (s.after r) := by
  unfold after
  split
  · exact hok rfl
  · exact hs

theorem Store.after_map {ε α β : Type} (s : Store) (r : Except ε (α × Store)) (f : α → β) :
    s.after (r.map fun p => (f p.1, p.2)) = s.after r := by
  cases r <;> rfl

theorem Store.after_mapError {ε ε' α : Type} (s : Store) (r : Except ε (α × Store))
    (f : ε → ε') : s.after (r.mapError f) = s.after r := by
  cases r <;> rfl

def NewWallet.opened (new : NewWallet) (s : Store) : Wallet where
  id := s.lastWallet + 1
  owner := new.owner
  currency := new.currency
  address := new.address
  balance := 0
  isDefault := new.isDefault

def Wallet.changed (w : Wallet) (change : WalletChange) : Wallet :=
  { w with
    currency := change.currency.getD w.currency
    address := change.address.getD w.address
    isDefault := change.isDefault }

/-- The wallet with its flag, if it has one, only when it may keep it. -/
def Wallet.keepFlag (w : Wallet) (keeps : Bool) : Wallet :=
  { w with isDefault := w.isDefault && keeps }

theorem Wallet.keepFlag_true (w : Wallet) : w.keepFlag true = w := by
  unfold keepFlag
  rw [Bool.and_true]

namespace Store

def vacate (s : Store) (id : Nat) (w : Wallet) : Store :=
  if w.isDefault then s.leaveSlot (walletKey w) id else s

/-- Writes a wallet, which takes its slot if it is flagged. -/
def seat (s : Store) (id : Nat) (w : Wallet) : Store :=
  (if w.isDefault then s.takeSlot (walletKey w) id else s).putWallet w

/-- Notes the address that a wallet is written with, if it is another one. -/
def readdress (s : Store) (w : Wallet) (address : String) : Except StoreFault Store :=
  if address = w.address then .ok s else s.moveAddress w address

/-! ### Reading after a slot is left or taken -/

section Slots

variable (s : Store) (key : String) (id : Nat)

theorem defaults_leaveSlot (key' : String) :
    (s.leaveSlot key id).defaults.get? key' =
      if key' = key ∧ s.defaults.get? key = some id then none else s.defaults.get? key' := by
  unfold leaveSlot
  by_cases hentry : s.defaults.get? key = some id
  · rw [if_pos hentry, Table.get?_erase]
    simp only [hentry, and_true]
  · rw [if_neg hentry, if_neg fun h => hentry h.2]

@[simp] theorem wallets_leaveSlot : (s.leaveSlot key id).wallets = s.wallets := by
  unfold leaveSlot
  split <;> rfl

@[simp] theorem wallets_vacate (w : Wallet) : (s.vacate id w).wallets = s.wallets := by
  unfold vacate
  split
  · rw [wallets_leaveSlot]
  · rfl

@[simp] theorem lastWallet_leaveSlot : (s.leaveSlot key id).lastWallet = s.lastWallet := by
  unfold leaveSlot
  split <;> rfl

@[simp] theorem lastWallet_vacate (w : Wallet) : (s.vacate id w).lastWallet = s.lastWallet := by
  unfold vacate
  split
  · rw [lastWallet_leaveSlot]
  · rfl

theorem defaults_takeSlot (key' : String) :
    (s.takeSlot key id).defaults.get? key' =
      if key' = key then some id else s.defaults.get? key' := by
  have hdefaults : (s.unflag key id).defaults = s.defaults := by
    unfold unflag
    split
    · rfl
    · split <;> rfl
  show ((s.unflag key id).defaults.insert key id).get? key' = _
  rw [hdefaults, Table.get?_insert]

@[simp] theorem lastWallet_takeSlot : (s.takeSlot key id).lastWallet = s.lastWallet := by
  show (s.unflag key id).lastWallet = _
  unfold unflag
  split
  · rfl
  · split <;> rfl

theorem get?_takeSlot (hid : ∀ {k w}, s.wallets.get? k = some w → w.id = k) (k : Nat) :
    (s.takeSlot key id).wallets.get? k = (s.wallets.get? k).map
      (·.keepFlag (k == id || s.defaults.get? key != some k)) := by
  have hkeep : (k == id || s.defaults.get? key != some k) = true →
      s.wallets.get? k = (s.wallets.get? k).map
        (·.keepFlag (k == id || s.defaults.get? key != some k)) := by
    intro h
    rw [h]
    cases s.wallets.get? k with
    | none => rfl
    | some w => rw [Option.map_some, Wallet.keepFlag_true]
  show (s.unflag key id).wallets.get? k = _
  unfold unflag
  cases hprevious : (s.defaults.get? key).filter (· != id) with
  | none =>
    refine hkeep ?_
    cases hentry : s.defaults.get? key with
    | none => simp
    | some previous =>
      have hprevious : previous = id := by simpa [hentry] using hprevious
      by_cases hk : k = id <;> simp [hprevious, hk, Ne.symm]
  | some previous =>
    obtain ⟨hentry, hne⟩ := Option.filter_eq_some_iff.mp hprevious
    replace hne : previous ≠ id := by simpa using hne
    have hother : k ≠ previous → (k == id || s.defaults.get? key != some k) = true := by
      intro hk
      simp [hentry, Ne.symm hk]
    simp only
    cases hrow : s.wallets.get? previous with
    | none =>
      by_cases hk : k = previous
      · simp [hk, hrow]
      · exact hkeep (hother hk)
    | some w =>
      simp only
      rw [get?_putWallet]
      show (if k = w.id then _ else _) = _
      rw [hid hrow]
      by_cases hk : k = previous
      · rw [if_pos hk, hk, hrow, Option.map_some, hentry]
        simp [Wallet.keepFlag, hne, hid hrow]
      · rw [if_neg hk]
        exact hkeep (hother hk)

theorem lastWallet_seat (w : Wallet) : (s.seat id w).lastWallet = s.lastWallet := by
  show (if w.isDefault then _ else _ : Store).lastWallet = _
  split
  · rw [lastWallet_takeSlot]
  · rfl

theorem defaults_seat (w : Wallet) :
    (s.seat id w).defaults.get? key =
      if w.isDefault = true ∧ key = walletKey w then some id else s.defaults.get? key := by
  show (if w.isDefault then _ else _ : Store).defaults.get? key = _
  by_cases hw : w.isDefault = true
  · rw [if_pos hw, defaults_takeSlot]
    simp only [hw, true_and]
  · rw [if_neg hw, if_neg fun h => hw h.1]

theorem get?_seat (hid : ∀ {k w}, s.wallets.get? k = some w → w.id = k) {w : Wallet}
    (hw : w.id = id) (k : Nat) :
    (s.seat id w).wallets.get? k = if k = id then some w else
      (s.wallets.get? k).map
        (·.keepFlag !(w.isDefault && s.defaults.get? (walletKey w) == some k)) := by
  unfold seat
  rw [get?_putWallet, hw]
  by_cases hk : k = id
  · rw [if_pos hk, if_pos hk]
  · rw [if_neg hk, if_neg hk]
    by_cases hflag : w.isDefault = true
    · have hother : (k == id) = false := beq_false_of_ne hk
      rw [if_pos hflag, get?_takeSlot s _ _ hid, hother, hflag]
      rfl
    · rw [if_neg hflag]
      cases s.wallets.get? k with
      | none => rfl
      | some u => simp [hflag, Wallet.keepFlag_true]

end Slots

/-! ### When a call goes through -/

section Calls

variable {s s' : Store} {id : Nat} {w : Wallet}

theorem openWallet_eq_ok {new : NewWallet} :
    s.openWallet new = .ok (w, s') ↔
      s.addresses.get? new.address = none ∧ w = new.opened s ∧
        s' = { { s with lastWallet := w.id }.seat w.id w with
          addresses := ({ s with lastWallet := w.id }.seat w.id w).addresses.insert
            w.address w.id } := by
  unfold openWallet Table.contains
  cases hfree : s.addresses.get? new.address with
  | some k => simp
  | none =>
    rw [if_neg (by simp), Except.ok.injEq, Prod.mk.injEq]
    constructor
    · rintro ⟨rfl, rfl⟩
      exact ⟨rfl, rfl, rfl⟩
    · rintro ⟨-, rfl, rfl⟩
      exact ⟨rfl, rfl⟩

theorem makeDefault_eq_ok {owner : Nat} :
    s.makeDefault owner id = .ok (w, s') ↔
      ∃ v, s.wallets.get? id = some v ∧ v.owner = owner ∧ w = { v with isDefault := true } ∧
        s' = s.seat id w := by
  unfold makeDefault wallet
  cases hrow : s.wallets.get? id with
  | none => simp [bind, Except.bind]
  | some v =>
    by_cases howner : v.owner = owner
    · subst howner
      simp only [bind, Except.bind, ne_eq, not_true_eq_false, if_false, Except.ok.injEq,
        Prod.mk.injEq]
      constructor
      · rintro ⟨rfl, rfl⟩
        exact ⟨v, rfl, rfl, rfl, rfl⟩
      · rintro ⟨u, hu, -, rfl, rfl⟩
        cases hu
        exact ⟨rfl, rfl⟩
    · simp only [bind, Except.bind, howner, ne_eq, not_false_eq_true, if_true, reduceCtorEq,
        false_iff, not_exists, not_and]
      intro u hu hown
      cases hu
      exact absurd hown howner

theorem readdress_eq_ok {address : String} :
    s.readdress w address = .ok s' ↔
      address = w.address ∧ s' = s ∨ address ≠ w.address ∧ s.addresses.get? address = none ∧
        s' = { s with addresses := (s.addresses.erase w.address).insert address w.id } := by
  unfold readdress moveAddress Table.contains
  by_cases hsame : address = w.address
  · rw [if_pos hsame, Except.ok.injEq]
    simp [hsame, eq_comm]
  · rw [if_neg hsame]
    cases s.addresses.get? address with
    | some k => simp [hsame]
    | none =>
      rw [if_neg (by simp), Except.ok.injEq]
      simp [hsame, eq_comm]

theorem changeWallet_eq (change : WalletChange) (h : s.wallets.get? id = some w) :
    s.changeWallet id change = (s.readdress w (w.changed change).address).map fun t =>
      (w.changed change, (t.vacate id w).seat id (w.changed change)) := by
  unfold changeWallet readdress
  rw [wallet_eq_ok.mpr h]
  have haddress : (w.changed change).address = change.address.getD w.address := rfl
  rw [haddress]
  by_cases hsame : change.address.getD w.address = w.address
  · simp only [bind, Except.bind, if_pos hsame]
    rfl
  · simp only [bind, Except.bind, if_neg hsame]
    cases s.moveAddress w (change.address.getD w.address) <;> rfl

theorem changeWallet_eq_ok {change : WalletChange} :
    s.changeWallet id change = .ok (w, s') ↔
      ∃ v t, s.wallets.get? id = some v ∧ w = v.changed change ∧
        s.readdress v w.address = .ok t ∧ s' = (t.vacate id v).seat id w := by
  cases hrow : s.wallets.get? id with
  | none => simp [changeWallet, wallet, hrow, bind, Except.bind]
  | some v =>
    rw [changeWallet_eq change hrow]
    constructor
    · intro h
      cases hmove : s.readdress v (v.changed change).address with
      | error fault => simp [hmove, Except.map] at h
      | ok t =>
        rw [hmove] at h
        cases h
        exact ⟨v, t, rfl, rfl, hmove, rfl⟩
    · rintro ⟨u, t, hu, rfl, ht, rfl⟩
      cases hu
      rw [ht]
      rfl

theorem closeWallet_eq_ok :
    s.closeWallet id = .ok (w, s') ↔
      s.wallets.get? id = some w ∧
        s' = { s with
          wallets := s.wallets.erase id
          addresses := s.addresses.erase w.address }.leaveSlot (walletKey w) id := by
  unfold closeWallet wallet
  cases s.wallets.get? id with
  | none => simp [bind, Except.bind]
  | some v =>
    simp only [bind, Except.bind, pure, Except.pure, Except.ok.injEq, Prod.mk.injEq,
      Option.some.injEq]
    constructor
    · rintro ⟨rfl, rfl⟩
      exact ⟨rfl, rfl⟩
    · rintro ⟨rfl, rfl⟩
      exact ⟨rfl, rfl⟩

end Calls

/-! ### Any call -/

/-- A call of the store that writes wallets, with any arguments. -/
inductive WalletCall
  | openWallet (new : NewWallet)
  | changeWallet (id : Nat) (change : WalletChange)
  | makeDefault (owner id : Nat)
  | closeWallet (id : Nat)
  | rebalance (id : Nat) (compute : Wallet → Except LedgerFault Int)

def WalletCall.run (s : Store) : WalletCall → Store
  | .openWallet new => s.after (s.openWallet new)
  | .changeWallet id change => s.after (s.changeWallet id change)
  | .makeDefault owner id => s.after (s.makeDefault owner id)
  | .closeWallet id => s.after (s.closeWallet id)
  | .rebalance id compute => s.after (s.rebalance .ofStore id compute)

/-! ### What is no matter of the wallets -/

def besides (s : Store) : Table String Payment × Table Nat Transfer × Nat :=
  (s.payments, s.transfers, s.lastTransfer)

@[simp] theorem besides_putWallet (s : Store) (w : Wallet) :
    (s.putWallet w).besides = s.besides := rfl

@[simp] theorem besides_takeSlot (s : Store) (key : String) (id : Nat) :
    (s.takeSlot key id).besides = s.besides := by
  show (s.unflag key id).besides = s.besides
  unfold unflag
  split
  · rfl
  · split <;> rfl

@[simp] theorem besides_leaveSlot (s : Store) (key : String) (id : Nat) :
    (s.leaveSlot key id).besides = s.besides := by
  unfold leaveSlot
  split <;> rfl

@[simp] theorem besides_vacate (s : Store) (id : Nat) (w : Wallet) :
    (s.vacate id w).besides = s.besides := by
  unfold vacate
  split
  · exact besides_leaveSlot ..
  · rfl

@[simp] theorem besides_seat (s : Store) (id : Nat) (w : Wallet) :
    (s.seat id w).besides = s.besides := by
  unfold seat
  rw [besides_putWallet]
  split
  · exact besides_takeSlot ..
  · rfl

theorem besides_readdress {s s' : Store} {w : Wallet} {address : String}
    (h : s.readdress w address = .ok s') : s'.besides = s.besides := by
  obtain ⟨-, rfl⟩ | ⟨-, -, rfl⟩ := readdress_eq_ok.mp h
  · rfl
  · rfl

theorem WalletCall.besides_run (s : Store) (call : WalletCall) :
    (call.run s).besides = s.besides := by
  cases call with
  | openWallet new =>
    refine after_of (P := fun s' => s'.besides = s.besides) rfl fun h => ?_
    obtain ⟨-, -, rfl⟩ := openWallet_eq_ok.mp h
    exact besides_seat ..
  | changeWallet id change =>
    refine after_of (P := fun s' => s'.besides = s.besides) rfl fun h => ?_
    obtain ⟨v, t, -, -, ht, rfl⟩ := changeWallet_eq_ok.mp h
    rw [besides_seat, besides_vacate, besides_readdress ht]
  | makeDefault owner id =>
    refine after_of (P := fun s' => s'.besides = s.besides) rfl fun h => ?_
    obtain ⟨v, -, -, -, rfl⟩ := makeDefault_eq_ok.mp h
    exact besides_seat ..
  | closeWallet id =>
    refine after_of (P := fun s' => s'.besides = s.besides) rfl fun h => ?_
    obtain ⟨-, rfl⟩ := closeWallet_eq_ok.mp h
    exact besides_leaveSlot ..
  | rebalance id compute =>
    refine after_of (P := fun s' => s'.besides = s.besides) rfl fun h => ?_
    obtain ⟨v, b, -, -, -, rfl⟩ := rebalance_eq_ok.mp h
    rfl

end Store

end Clearing

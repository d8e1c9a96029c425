import Clearing.Proofs.Defaults

/-!
# One wallet at each address

Where a wallet is found is said twice: by the address in its row and by the
index of the addresses. A wallet that is opened, moved or closed changes one
row and one or two entries; `index_of` says for all three why no other wallet
is lost or found by it. A wallet that is closed frees its address but never
its number.
-/

namespace Clearing.Store

variable {s s' : Store} {id : Nat} {w v : Wallet}

/-! ### Rows and entries after a wallet is written -/

/-- What the flag does not tell of a wallet changes in the row that is written
and in no other. -/
theorem map_get?_seat {β : Type} (f : Wallet → β) (hf : ∀ u keeps, f (u.keepFlag keeps) = f u)
    (hid : ∀ {k w}, s.wallets.get? k = some w → w.id = k) (hw : w.id = id) (k : Nat) :
    ((s.seat id w).wallets.get? k).map f =
      if k = id then some (f w) else (s.wallets.get? k).map f := by
  rw [get?_seat s id hid hw]
  by_cases hk : k = id
  · rw [if_pos hk, if_pos hk, Option.map_some]
  · rw [if_neg hk, if_neg hk, Option.map_map]
    cases s.wallets.get? k with
    | none => rfl
    | some u => exact congrArg some (hf u _)

section Slots

variable (s) (key : String) (id) (w)

@[simp] theorem addresses_leaveSlot : (s.leaveSlot key id).addresses = s.addresses := by
  unfold leaveSlot
  split <;> rfl

@[simp] theorem addresses_vacate : (s.vacate id w).addresses = s.addresses := by
  unfold vacate
  split
  · exact addresses_leaveSlot ..
  · rfl

@[simp] theorem addresses_takeSlot : (s.takeSlot key id).addresses = s.addresses := by
  show (s.unflag key id).addresses = s.addresses
  unfold unflag
  split
  · rfl
  · split <;> rfl

@[simp] theorem addresses_seat : (s.seat id w).addresses = s.addresses := by
  show (if w.isDefault then s.takeSlot (walletKey w) id else s).addresses = s.addresses
  split
  · exact addresses_takeSlot ..
  · rfl

end Slots

/-! ### Rows and index -/

def address? (s : Store) (id : Nat) : Option String := (s.wallets.get? id).map Wallet.address

theorem address?_of_some (h : s.wallets.get? id = some w) : s.address? id = some w.address := by
  unfold address?
  rw [h, Option.map_some]

theorem address?_congr (h : s'.wallets = s.wallets) (k : Nat) : s'.address? k = s.address? k := by
  unfold address?
  rw [h]

/-- The index of the addresses says what the rows say. -/
structure Indexed (s : Store) : Prop extends s.AgreesOn fun _ => True where
  index : ∀ {address k}, s.addresses.get? address = some k ↔ s.address? k = some address

theorem indexed_empty : empty.Indexed where
  toAgreesOn := agrees_empty
  index := by simp [empty, address?]

/-- One wallet gets the address `new`, which was free, or goes. The index is
right again once it has the entry of the new address and has lost that of the
old one. -/
theorem index_of (h : s.Indexed) {new : Option String}
    (hrows : ∀ k, s'.address? k = if k = id then new else s.address? k)
    (hfree : ∀ address, new = some address → s.addresses.get? address = none)
    (hentries : ∀ address, s'.addresses.get? address =
      if new = some address then some id
      else if s.address? id = some address then none else s.addresses.get? address)
    {address : String} {k : Nat} :
    s'.addresses.get? address = some k ↔ s'.address? k = some address := by
  rw [hentries, hrows]
  by_cases hnew : new = some address
  · rw [if_pos hnew]
    by_cases hk : k = id
    · simp [hk, hnew]
    · -- no other wallet was at an address that was free
      have hother : s.address? k ≠ some address := by
        rw [ne_eq, ← h.index, hfree address hnew]
        simp
      rw [if_neg hk]
      simp [hother, Ne.symm hk]
  · rw [if_neg hnew]
    by_cases hold : s.address? id = some address
    · rw [if_pos hold]
      by_cases hk : k = id
      · simp [hk, hnew]
      · -- the entry that is lost was that of `id`
        rw [if_neg hk, ← h.index, h.index.mpr hold]
        simp [Ne.symm hk]
    · rw [if_neg hold, h.index]
      by_cases hk : k = id
      · simp [hk, hold, hnew]
      · rw [if_neg hk]

/-! ### Call by call -/

namespace Indexed

theorem congr (h : s.Indexed) (hagrees : s'.Agrees) (hrows : ∀ k, s'.address? k = s.address? k)
    (hindex : s'.addresses = s.addresses) : s'.Indexed where
  toAgreesOn := hagrees
  index := by
    intro address k
    rw [hindex, hrows, h.index]

theorem address?_seat (h : s.Indexed) (hw : w.id = id) (k : Nat) :
    (s.seat id w).address? k = if k = id then some w.address else s.address? k :=
  map_get?_seat Wallet.address (fun _ _ => rfl) h.wallet_id hw k

theorem openWallet (h : s.Indexed) {new : NewWallet} (hok : s.openWallet new = .ok (w, s')) :
    s'.Indexed := by
  have hagrees : s'.Agrees := h.toAgreesOn.openWallet hok
  obtain ⟨hfree, hw, rfl⟩ := openWallet_eq_ok.mp hok
  have hid : w.id = s.lastWallet + 1 := by rw [hw]; rfl
  have haddress : w.address = new.address := by rw [hw]; rfl
  have hnone : s.address? w.id = none := by
    cases hrow : s.wallets.get? w.id with
    | none => simp [address?, hrow]
    | some u =>
      have hle := h.wallet_le hrow
      omega
  let t := { s with lastWallet := w.id }.seat w.id w
  have hrow : ∀ k, Store.address? { t with addresses := t.addresses.insert w.address w.id } k =
      if k = w.id then some w.address else s.address? k :=
    map_get?_seat (s := { s with lastWallet := w.id }) Wallet.address (fun _ _ => rfl)
      h.wallet_id rfl
  refine ⟨hagrees, index_of h hrow (fun address hnew => ?_) fun address => ?_⟩
  · rw [← Option.some.inj hnew, haddress, hfree]
  · rw [Table.get?_insert, addresses_seat, hnone]
    simp [eq_comm]

theorem makeDefault (h : s.Indexed) {owner : Nat} (hok : s.makeDefault owner id = .ok (w, s')) :
    s'.Indexed := by
  have hagrees : s'.Agrees := h.toAgreesOn.makeDefault hok
  obtain ⟨v, hv, -, hw, rfl⟩ := makeDefault_eq_ok.mp hok
  have hid : w.id = id := by
    have hvid : v.id = id := h.wallet_id hv
    rw [hw]
    exact hvid
  refine h.congr hagrees (fun k => ?_) (addresses_seat ..)
  rw [h.address?_seat hid]
  split
  · rename_i hk
    rw [hk, address?_of_some hv, hw]
  · rfl

theorem changeWallet (h : s.Indexed) {change : WalletChange}
    (hok : s.changeWallet id change = .ok (w, s')) : s'.Indexed := by
  have hagrees : s'.Agrees := h.toAgreesOn.changeWallet hok
  obtain ⟨v, t, hv, hw, ht, rfl⟩ := changeWallet_eq_ok.mp hok
  have hvid : v.id = id := h.wallet_id hv
  have hid : w.id = id := by
    rw [hw]
    exact hvid
  have hold : s.address? id = some v.address := address?_of_some hv
  have hwallets : t.wallets = s.wallets := by
    obtain ⟨-, rfl⟩ | ⟨-, -, rfl⟩ := readdress_eq_ok.mp ht
    · rfl
    · rfl
  have hrow : ∀ k, ((t.vacate id v).seat id w).address? k =
      if k = id then some w.address else s.address? k := by
    intro k
    have hrows : (t.vacate id v).wallets = s.wallets := by rw [wallets_vacate, hwallets]
    have hseat := map_get?_seat (s := t.vacate id v) Wallet.address (fun _ _ => rfl)
      (by rw [hrows]; exact h.wallet_id) hid k
    rw [hrows] at hseat
    exact hseat
  obtain ⟨hsame, rfl⟩ | ⟨hother, hfree, rfl⟩ := readdress_eq_ok.mp ht
  · refine h.congr hagrees (fun k => ?_) (by rw [addresses_seat, addresses_vacate])
    rw [hrow]
    split
    · rename_i hk
      rw [hk, hold, hsame]
    · rfl
  · refine ⟨hagrees, index_of h hrow (fun address hnew => ?_) fun address => ?_⟩
    · rw [← Option.some.inj hnew, hfree]
    · rw [addresses_seat, addresses_vacate, Table.get?_insert, Table.get?_erase, hvid, hold]
      simp [eq_comm]

theorem closeWallet (h : s.Indexed) (hok : s.closeWallet id = .ok (w, s')) : s'.Indexed := by
  have hagrees : s'.Agrees := h.toAgreesOn.closeWallet hok
  obtain ⟨hw, rfl⟩ := closeWallet_eq_ok.mp hok
  let t := { s with wallets := s.wallets.erase id, addresses := s.addresses.erase w.address }
  have hrow : ∀ k, (t.leaveSlot (walletKey w) id).address? k =
      if k = id then none else s.address? k := by
    intro k
    rw [address?_congr (wallets_leaveSlot ..)]
    show ((s.wallets.erase id).get? k).map _ = _
    rw [Table.get?_erase]
    split
    · rfl
    · rfl
  refine ⟨hagrees, index_of h hrow (by simp) fun address => ?_⟩
  rw [addresses_leaveSlot, Table.get?_erase, address?_of_some hw]
  simp [eq_comm]

theorem rebalance (h : s.Indexed) {ε : Type} {ofStore : StoreFault → ε}
    {compute : Wallet → Except ε Int} (hok : s.rebalance ofStore id compute = .ok (w, s')) :
    s'.Indexed := by
  have hagrees : s'.Agrees := h.toAgreesOn.rebalance hok
  obtain ⟨v, b, hv, -, -, rfl⟩ := rebalance_eq_ok.mp hok
  refine h.congr hagrees (fun k => ?_) rfl
  have hid : v.id = id := h.wallet_id hv
  unfold address?
  rw [get?_putWallet]
  split
  · rename_i hk
    rw [hk]
    show _ = (s.wallets.get? v.id).map _
    rw [hid, hv]
    rfl
  · rfl

end Indexed

theorem WalletCall.indexed_run (h : s.Indexed) (call : WalletCall) : (call.run s).Indexed := by
  cases call with
  | openWallet new => exact after_of h fun hok => h.openWallet hok
  | changeWallet id change => exact after_of h fun hok => h.changeWallet hok
  | makeDefault owner id => exact after_of h fun hok => h.makeDefault hok
  | closeWallet id => exact after_of h fun hok => h.closeWallet hok
  | rebalance id compute => exact after_of h fun hok => h.rebalance hok

theorem indexed_foldl (h : s.Indexed) (calls : List WalletCall) :
    (calls.foldl WalletCall.run s).Indexed := by
  induction calls generalizing s with
  | nil => exact h
  | cons call calls ih => exact ih (call.indexed_run h)

theorem walletAt?_eq_some (h : s.Indexed) {address : String} :
    s.walletAt? address = some w ↔ s.wallets.get? w.id = some w ∧ w.address = address := by
  unfold walletAt?
  rw [Option.bind_eq_some_iff]
  constructor
  · rintro ⟨k, hentry, hw⟩
    rw [h.wallet_id hw]
    rw [h.index, address?_of_some hw] at hentry
    exact ⟨hw, Option.some.inj hentry⟩
  · rintro ⟨hw, rfl⟩
    exact ⟨w.id, h.index.mpr (address?_of_some hw), hw⟩

/-! ### Numbers -/

def WalletCall.number? (s : Store) : WalletCall → Option Nat
  | .openWallet new => (s.openWallet new).toOption.map (·.1.id)
  | _ => none

def numbers (s : Store) : List WalletCall → List Nat
  | [] => []
  | call :: calls => (call.number? s).toList ++ numbers (call.run s) calls

theorem WalletCall.lastWallet_run (s : Store) (call : WalletCall) :
    call.number? s = none ∧ (call.run s).lastWallet = s.lastWallet ∨
      call.number? s = some (s.lastWallet + 1) ∧
        (call.run s).lastWallet = s.lastWallet + 1 := by
  cases call with
  | openWallet new =>
    unfold number? run
    simp only
    cases hok : s.openWallet new with
    | error fault => exact .inl ⟨rfl, rfl⟩
    | ok q =>
      obtain ⟨w, s'⟩ := q
      obtain ⟨-, hw, rfl⟩ := openWallet_eq_ok.mp hok
      have hid : w.id = s.lastWallet + 1 := by rw [hw]; rfl
      have hlast : ({ s with lastWallet := w.id }.seat w.id w).lastWallet = w.id :=
        lastWallet_seat ..
      exact .inr ⟨congrArg some hid, hlast.trans hid⟩
  | changeWallet id change =>
    refine .inl ⟨rfl, after_of (P := fun s' => s'.lastWallet = s.lastWallet) rfl fun hok => ?_⟩
    obtain ⟨v, t, -, -, ht, rfl⟩ := changeWallet_eq_ok.mp hok
    rw [lastWallet_seat, lastWallet_vacate]
    obtain ⟨-, rfl⟩ | ⟨-, -, rfl⟩ := readdress_eq_ok.mp ht
    · rfl
    · rfl
  | makeDefault owner id =>
    refine .inl ⟨rfl, after_of (P := fun s' => s'.lastWallet = s.lastWallet) rfl fun hok => ?_⟩
    obtain ⟨v, -, -, -, rfl⟩ := makeDefault_eq_ok.mp hok
    exact lastWallet_seat ..
  | closeWallet id =>
    refine .inl ⟨rfl, after_of (P := fun s' => s'.lastWallet = s.lastWallet) rfl fun hok => ?_⟩
    obtain ⟨-, rfl⟩ := closeWallet_eq_ok.mp hok
    exact lastWallet_leaveSlot ..
  | rebalance id compute =>
    refine .inl ⟨rfl, after_of (P := fun s' => s'.lastWallet = s.lastWallet) rfl fun hok => ?_⟩
    obtain ⟨v, b, -, -, -, rfl⟩ := rebalance_eq_ok.mp hok
    rfl

theorem lastWallet_lt_numbers : ∀ (calls : List WalletCall) (s : Store),
    ∀ n ∈ numbers s calls, s.lastWallet < n
  | [], _, _, hn => by cases hn
  | call :: calls, s, n, hn => by
    have hrest := lastWallet_lt_numbers calls (call.run s) n
    unfold numbers at hn
    obtain ⟨hnumber, hlast⟩ | ⟨hnumber, hlast⟩ := call.lastWallet_run s
    · rw [hnumber] at hn
      have hlt := hrest hn
      omega
    · rw [hnumber] at hn
      rcases List.mem_append.mp hn with hn | hn
      · rw [Option.toList_some, List.mem_singleton] at hn
        omega
      · have hlt := hrest hn
        omega

theorem numbers_increase : ∀ (calls : List WalletCall) (s : Store),
    (numbers s calls).Pairwise (· < ·)
  | [], _ => .nil
  | call :: calls, s => by
    have hrest := numbers_increase calls (call.run s)
    have habove := lastWallet_lt_numbers calls (call.run s)
    unfold numbers
    obtain ⟨hnumber, -⟩ | ⟨hnumber, hlast⟩ := call.lastWallet_run s
    · rw [hnumber]
      exact hrest
    · rw [hnumber]
      rw [hlast] at habove
      exact .cons habove hrest

/-- **Addresses lead to their wallets.** After any calls that write wallets, failed
ones among them, the index maps an address to a number when the wallet of that
number is there and holds the address. So no two wallets hold one address. Of the
numbers given to new wallets each is higher than all before it, whatever was closed
or refused in between. -/
theorem addresses_exact (calls : List WalletCall) :
    let s := calls.foldl WalletCall.run .empty
    (∀ address k, s.addresses.get? address = some k ↔
      ∃ w, s.wallets.get? k = some w ∧ w.id = k ∧ w.address = address) ∧
    (∀ w v, s.wallets.get? w.id = some w → s.wallets.get? v.id = some v →
      w.address = v.address → w = v) ∧
    (∀ address w, s.walletAt? address = some w ↔
      s.wallets.get? w.id = some w ∧ w.address = address) ∧
    (numbers .empty calls).Pairwise (· < ·) := by
  intro s
  have h : s.Indexed := indexed_foldl indexed_empty calls
  refine ⟨fun address k => ?_, fun w v hw hv hsame => ?_, fun address w => walletAt?_eq_some h,
    numbers_increase calls .empty⟩
  · rw [h.index]
    unfold address?
    rw [Option.map_eq_some_iff]
    constructor
    · rintro ⟨w, hw, rfl⟩
      exact ⟨w, hw, h.wallet_id hw, rfl⟩
    · rintro ⟨w, hw, -, rfl⟩
      exact ⟨w, hw, rfl⟩
  · have hfound : s.walletAt? v.address = some w := (walletAt?_eq_some h).mpr ⟨hw, hsame⟩
    have hfound' : s.walletAt? v.address = some v := (walletAt?_eq_some h).mpr ⟨hv, rfl⟩
    rw [hfound] at hfound'
    exact Option.some.inj hfound'

end Clearing.Store

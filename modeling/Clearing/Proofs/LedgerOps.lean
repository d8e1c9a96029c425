import Clearing.Proofs.WalletCalls

/-!
# The operations of the ledger

What a caller can ask the ledger to write, each in one transaction. An
operation that reads before it writes is here with its write alone, which may
come when what was read is no longer so. A balance that is set from outside
fits in 64 bits. The ledger writes wallets by the calls of the store alone, so
it preserves what all of them preserve.
-/

namespace Clearing

namespace Ledger

open Store

inductive Op
  | credit (id : Nat) (amount : Int)
  | debit (id : Nat) (amount : Int)
  | setBalance (id : Nat) (balance : Int64)
  | openWallet (new : NewWallet)
  | changeWallet (id : Nat) (change : WalletChange)
  | makeDefault (owner id : Nat)
  | closeWallet (id : Nat)
deriving DecidableEq, Repr

namespace Op

def run (s : Store) : Op → Store
  | .credit id amount => s.after (Ledger.credit s id amount)
  | .debit id amount => s.after (Ledger.debit s id amount)
  | .setBalance id balance => s.after (Ledger.setBalance s id balance.toInt)
  | .openWallet new => s.after (s.openWallet new)
  | .changeWallet id change => s.after (s.changeWallet id change)
  | .makeDefault owner id => s.after (s.makeDefault owner id)
  | .closeWallet id => s.after (s.closeWallet id)

/-- What an operation adds to the funds, as its answer says. -/
def gain (s : Store) : Op → Int
  | .credit id amount => if (Ledger.credit s id amount).isOk then amount else 0
  | .debit id amount => if (Ledger.debit s id amount).isOk then -amount else 0
  | .setBalance id balance =>
    if (Ledger.setBalance s id balance.toInt).isOk then balance.toInt - s.balance id else 0
  | .closeWallet id => -s.balance id
  | _ => 0

end Op
end Ledger

/-! ### Operations that leave the balances alone

Opening, changing and flagging a wallet writes rows, but none with another
balance than before; a new wallet has a number that no row has and nothing on
it. -/

namespace Store

/-- `s'` comes from the sound store `s` with every balance and every transfer
kept. -/
structure SameFunds (s s' : Store) : Prop where
  sound : s'.Sound
  funds : s'.funds = s.funds
  balance : ∀ k, s'.balance k = s.balance k
  transfers : s'.transfers = s.transfers
  lastWallet : s.lastWallet ≤ s'.lastWallet
  lastTransfer : s'.lastTransfer = s.lastTransfer

theorem SameFunds.of_wallets {s s' : Store} (hs : s.Sound) (hw : s'.wallets = s.wallets)
    (ht : s'.transfers = s.transfers) (hlw : s.lastWallet ≤ s'.lastWallet)
    (hlt : s'.lastTransfer = s.lastTransfer) : s.SameFunds s' where
  sound := by
    refine ⟨?_, fun h => ?_, ?_, ?_, ?_, ?_⟩
    · rw [hw]; exact hs.wallet_id
    · rw [hw] at h; exact Nat.le_trans (hs.wallet_le h) hlw
    · rw [hw]; exact hs.balance_nonneg
    · rw [hw]; exact hs.balance_le
    · rw [ht]; exact hs.transfer_id
    · rw [ht, hlt]; exact hs.transfer_le
  funds := by
    show s'.wallets.total _ = s.wallets.total _
    rw [hw]
  balance k := by
    show (s'.wallets.get? k).elim 0 _ = (s.wallets.get? k).elim 0 _
    rw [hw]
  transfers := ht
  lastWallet := hlw
  lastTransfer := hlt

theorem SameFunds.refl {s : Store} (hs : s.Sound) : s.SameFunds s :=
  .of_wallets hs rfl rfl (Nat.le_refl _) rfl

theorem SameFunds.trans {s t u : Store} (h : s.SameFunds t) (h' : t.SameFunds u) :
    s.SameFunds u where
  sound := h'.sound
  funds := h'.funds.trans h.funds
  balance k := (h'.balance k).trans (h.balance k)
  transfers := h'.transfers.trans h.transfers
  lastWallet := Nat.le_trans h.lastWallet h'.lastWallet
  lastTransfer := h'.lastTransfer.trans h.lastTransfer

theorem sameFunds_putWallet {s : Store} (hs : s.Sound) {w : Wallet} (hid : w.id ≤ s.lastWallet)
    (hb : w.balance = s.balance w.id) (h0 : 0 ≤ w.balance) (hmax : w.balance ≤ maxInt64) :
    s.SameFunds (s.putWallet w) where
  sound := hs.putWallet hid h0 hmax
  funds := by
    rw [funds_putWallet, hb]
    omega
  balance k := by
    rw [balance_putWallet]
    split
    · rename_i hk
      rw [hk, hb]
    · rfl
  transfers := rfl
  lastWallet := Nat.le_refl _
  lastTransfer := rfl

theorem sameFunds_rewrite {s : Store} (hs : s.Sound) {w v : Wallet} {id : Nat}
    (hw : s.wallets.get? id = some w) (hid : v.id = id) (hb : v.balance = w.balance) :
    s.SameFunds (s.putWallet v) :=
  sameFunds_putWallet hs (hid ▸ hs.wallet_le hw) (by rw [hb, hid, balance_of_some hw])
    (hb ▸ hs.balance_nonneg hw) (hb ▸ hs.balance_le hw)

theorem sameFunds_unflag {s : Store} (hs : s.Sound) (key : String) (id : Nat) :
    s.SameFunds (s.unflag key id) := by
  unfold unflag
  split
  · exact .refl hs
  · split
    · exact .refl hs
    · rename_i previous _ _ w hw
      have hid : w.id = previous := hs.wallet_id hw
      exact sameFunds_rewrite hs hw hid rfl

theorem sameFunds_takeSlot {s : Store} (hs : s.Sound) (key : String) (id : Nat) :
    s.SameFunds (s.takeSlot key id) := by
  have h := sameFunds_unflag hs key id
  exact h.trans (.of_wallets h.sound rfl rfl (Nat.le_refl _) rfl)

theorem sameFunds_leaveSlot {s : Store} (hs : s.Sound) (key : String) (id : Nat) :
    s.SameFunds (s.leaveSlot key id) := by
  unfold leaveSlot
  split
  · exact .of_wallets hs rfl rfl (Nat.le_refl _) rfl
  · exact .refl hs

theorem sameFunds_seat {s : Store} (hs : s.Sound) {id : Nat} {w : Wallet} (hid : w.id = id)
    (hle : id ≤ s.lastWallet) (hb : w.balance = s.balance id) (h0 : 0 ≤ w.balance)
    (hmax : w.balance ≤ maxInt64) : s.SameFunds (s.seat id w) := by
  have hslot : s.SameFunds (if w.isDefault then s.takeSlot (walletKey w) id else s) := by
    split
    · exact sameFunds_takeSlot hs _ _
    · exact .refl hs
  have hbalance := hslot.balance id
  have hlast := hslot.lastWallet
  refine hslot.trans (sameFunds_putWallet hslot.sound ?_ ?_ h0 hmax)
  · rw [hid]
    omega
  · rw [hid, hb, hbalance]

theorem sameFunds_reseat {s : Store} (hs : s.Sound) {id : Nat} {w v : Wallet}
    (hw : s.wallets.get? id = some w) (hid : v.id = id) (hb : v.balance = w.balance) :
    s.SameFunds (s.seat id v) :=
  sameFunds_seat hs hid (hs.wallet_le hw) (by rw [hb, balance_of_some hw])
    (hb ▸ hs.balance_nonneg hw) (hb ▸ hs.balance_le hw)

theorem sameFunds_vacate {s : Store} (hs : s.Sound) (id : Nat) (w : Wallet) :
    s.SameFunds (s.vacate id w) := by
  unfold vacate
  split
  · exact sameFunds_leaveSlot hs _ _
  · exact .refl hs

theorem sameFunds_makeDefault {s : Store} (hs : s.Sound) (owner id : Nat) :
    s.SameFunds (s.after (s.makeDefault owner id)) := by
  refine after_of (.refl hs) fun h => ?_
  obtain ⟨v, hv, -, rfl, rfl⟩ := makeDefault_eq_ok.mp h
  have hid : v.id = id := hs.wallet_id hv
  exact sameFunds_reseat hs hv hid rfl

theorem sameFunds_openWallet {s : Store} (hs : s.Sound) (new : NewWallet) :
    s.SameFunds (s.after (s.openWallet new)) := by
  refine after_of (.refl hs) fun {w s'} h => ?_
  obtain ⟨-, hw, rfl⟩ := openWallet_eq_ok.mp h
  have hid : w.id = s.lastWallet + 1 := by rw [hw]; rfl
  have hb : w.balance = 0 := by rw [hw]; rfl
  have hnum : s.SameFunds { s with lastWallet := w.id } := by
    refine .of_wallets hs rfl rfl ?_ rfl
    show s.lastWallet ≤ w.id
    omega
  have hzero : w.balance = s.balance w.id := by
    rw [hb, hid, balance, hs.fresh_wallet]
    rfl
  have hseat := sameFunds_seat hnum.sound rfl (Nat.le_refl _) (hzero.trans (hnum.balance _).symm)
    (by omega) (by rw [hb]; decide)
  exact hnum.trans (hseat.trans (.of_wallets hseat.sound rfl rfl (Nat.le_refl _) rfl))

theorem sameFunds_changeWallet {s : Store} (hs : s.Sound) (id : Nat) (change : WalletChange) :
    s.SameFunds (s.after (s.changeWallet id change)) := by
  refine after_of (.refl hs) fun h => ?_
  obtain ⟨v, t, hv, rfl, ht, rfl⟩ := changeWallet_eq_ok.mp h
  have hid : v.id = id := hs.wallet_id hv
  have hmove : s.SameFunds t ∧ t.wallets = s.wallets := by
    obtain ⟨-, rfl⟩ | ⟨-, -, rfl⟩ := readdress_eq_ok.mp ht
    · exact ⟨.refl hs, rfl⟩
    · exact ⟨.of_wallets hs rfl rfl (Nat.le_refl _) rfl, rfl⟩
  have hleave := hmove.1.trans (sameFunds_vacate hmove.1.sound id v)
  have hrow : (t.vacate id v).wallets.get? id = some v := by rw [wallets_vacate, hmove.2, hv]
  exact hleave.trans (sameFunds_reseat hleave.sound hrow hid rfl)

/-! ### Operations that move the balances -/

theorem Sound.eraseWallet {s s' : Store} (hs : s.Sound) (id : Nat)
    (hw : s'.wallets = s.wallets.erase id) (ht : s'.transfers = s.transfers)
    (hlw : s'.lastWallet = s.lastWallet) (hlt : s'.lastTransfer = s.lastTransfer) :
    s'.Sound := by
  have row : ∀ {k v}, s'.wallets.get? k = some v → s.wallets.get? k = some v := by
    intro k v hv
    rw [hw, Table.get?_erase] at hv
    split at hv
    · cases hv
    · exact hv
  refine ⟨fun hv => hs.wallet_id (row hv), fun hv => ?_, fun hv => hs.balance_nonneg (row hv),
    fun hv => hs.balance_le (row hv), ?_, ?_⟩
  · rw [hlw]
    exact hs.wallet_le (row hv)
  · rw [ht]
    exact hs.transfer_id
  · rw [ht, hlt]
    exact hs.transfer_le

end Store

namespace Ledger

open Store

theorem sound_credit {s s' : Store} {id : Nat} {amount b : Int} (hs : s.Sound)
    (h : credit s id amount = .ok (b, s')) : s'.Sound := by
  obtain ⟨w, hw, hpos, hfits, -, rfl⟩ := credit_eq_ok.mp h
  have h0 := hs.balance_nonneg hw
  exact hs.putWallet (hs.wallet_id hw ▸ hs.wallet_le hw) (by simp only; omega) hfits

theorem sound_debit {s s' : Store} {id : Nat} {amount b : Int} (hs : s.Sound)
    (h : debit s id amount = .ok (b, s')) : s'.Sound := by
  obtain ⟨w, hw, hpos, hholds, -, rfl⟩ := debit_eq_ok.mp h
  have hmax := hs.balance_le hw
  exact hs.putWallet (hs.wallet_id hw ▸ hs.wallet_le hw) (by simp only; omega)
    (by simp only; omega)

theorem balance_credit {s s' : Store} {id : Nat} {amount b : Int} (hs : s.Sound)
    (h : credit s id amount = .ok (b, s')) (k : Nat) :
    s'.balance k = s.balance k + if k = id then amount else 0 := by
  obtain ⟨w, hw, -, -, -, rfl⟩ := credit_eq_ok.mp h
  have hid : w.id = id := hs.wallet_id hw
  rw [balance_putWallet]
  show (if k = w.id then _ else _) = _
  rw [hid]
  split
  · rename_i hk
    rw [hk, balance_of_some hw]
  · omega

theorem balance_debit {s s' : Store} {id : Nat} {amount b : Int} (hs : s.Sound)
    (h : debit s id amount = .ok (b, s')) (k : Nat) :
    s'.balance k = s.balance k - if k = id then amount else 0 := by
  obtain ⟨w, hw, -, -, -, rfl⟩ := debit_eq_ok.mp h
  have hid : w.id = id := hs.wallet_id hw
  rw [balance_putWallet]
  show (if k = w.id then _ else _) = _
  rw [hid]
  split
  · rename_i hk
    rw [hk, balance_of_some hw]
  · omega

theorem funds_credit {s s' : Store} {id : Nat} {amount b : Int} (hs : s.Sound)
    (h : credit s id amount = .ok (b, s')) : s'.funds = s.funds + amount := by
  obtain ⟨w, hw, -, -, -, rfl⟩ := credit_eq_ok.mp h
  have hb : s.balance w.id = w.balance := hs.wallet_id hw ▸ balance_of_some hw
  rw [funds_putWallet]
  show s.funds + (w.balance + amount) - s.balance w.id = _
  omega

theorem funds_debit {s s' : Store} {id : Nat} {amount b : Int} (hs : s.Sound)
    (h : debit s id amount = .ok (b, s')) : s'.funds = s.funds - amount := by
  obtain ⟨w, hw, -, -, -, rfl⟩ := debit_eq_ok.mp h
  have hb : s.balance w.id = w.balance := hs.wallet_id hw ▸ balance_of_some hw
  rw [funds_putWallet]
  show s.funds + (w.balance - amount) - s.balance w.id = _
  omega

theorem transfers_credit {s s' : Store} {id : Nat} {amount b : Int}
    (h : credit s id amount = .ok (b, s')) : s'.transfers = s.transfers := by
  obtain ⟨w, -, -, -, -, rfl⟩ := credit_eq_ok.mp h
  rfl

theorem transfers_debit {s s' : Store} {id : Nat} {amount b : Int}
    (h : debit s id amount = .ok (b, s')) : s'.transfers = s.transfers := by
  obtain ⟨w, -, -, -, -, rfl⟩ := debit_eq_ok.mp h
  rfl

/-! ### All of them -/

/-- A transaction of the ledger keeps what `Sound` says and every transfer,
and adds to the funds what its answer says. -/
structure Moves (s s' : Store) (gain : Int) : Prop where
  sound : s'.Sound
  transfers : s'.transfers = s.transfers
  funds : s'.funds = s.funds + gain

theorem Moves.of_sameFunds {s s' : Store} (h : s.SameFunds s') : Moves s s' 0 :=
  ⟨h.sound, h.transfers, by rw [h.funds, Int.add_zero]⟩

theorem Op.moves_run {s : Store} (hs : s.Sound) (op : Op) : Moves s (op.run s) (op.gain s) := by
  cases op with
  | credit id amount =>
    simp only [run, gain]
    cases h : Ledger.credit s id amount with
    | error fault => exact .of_sameFunds (.refl hs)
    | ok r => exact ⟨sound_credit hs h, transfers_credit h, funds_credit hs h⟩
  | debit id amount =>
    simp only [run, gain]
    cases h : Ledger.debit s id amount with
    | error fault => exact .of_sameFunds (.refl hs)
    | ok r => exact ⟨sound_debit hs h, transfers_debit h, funds_debit hs h⟩
  | setBalance id balance =>
    simp only [run, gain]
    cases h : Ledger.setBalance s id balance.toInt with
    | error fault => exact .of_sameFunds (.refl hs)
    | ok r =>
      obtain ⟨h0, w, hw, -, hr⟩ := setBalance_eq_ok.mp h
      have hid : w.id = id := hs.wallet_id hw
      have hmax := balance.toInt_le
      simp only [after, Except.isOk, Except.toBool, if_true, hr]
      refine ⟨hs.putWallet (hid ▸ hs.wallet_le hw) h0 hmax, rfl, ?_⟩
      rw [funds_putWallet]
      show s.funds + balance.toInt - s.balance w.id = _
      rw [hid]
      omega
  | openWallet new => exact .of_sameFunds (sameFunds_openWallet hs new)
  | changeWallet id change => exact .of_sameFunds (sameFunds_changeWallet hs id change)
  | makeDefault owner id => exact .of_sameFunds (sameFunds_makeDefault hs owner id)
  | closeWallet id =>
    simp only [run, gain, Store.closeWallet]
    cases h : s.wallet id with
    | error fault =>
      have hnone : s.balance id = 0 := by
        unfold Store.wallet at h
        unfold Store.balance
        cases hw : s.wallets.get? id <;> simp_all
      rw [hnone]
      exact .of_sameFunds (.refl hs)
    | ok w =>
      simp only [bind, Except.bind, pure, Except.pure, after]
      have hclose : Sound { s with
          wallets := s.wallets.erase id, addresses := s.addresses.erase w.address } :=
        hs.eraseWallet id rfl rfl rfl rfl
      have hleave := sameFunds_leaveSlot hclose (walletKey w) id
      refine ⟨hleave.sound, hleave.transfers, hleave.funds.trans ?_⟩
      show (s.wallets.erase id).total _ = _
      rw [Table.total_erase]
      rfl

end Ledger

theorem Ledger.Op.run_eq_call (s : Store) (op : Ledger.Op) :
    ∃ call : Store.WalletCall, op.run s = call.run s := by
  have hnothing : ∃ call : Store.WalletCall, s = call.run s := by
    refine ⟨.rebalance 0 fun _ => .error (.notPositive 0), ?_⟩
    show s = s.after (s.rebalance _ 0 _)
    unfold Store.rebalance
    cases s.wallet 0 <;> rfl
  cases op with
  | credit id amount =>
    unfold run Ledger.credit
    simp only
    split
    · exact hnothing
    · exact ⟨.rebalance id (Ledger.credited amount), Store.after_map s _ _⟩
  | debit id amount =>
    unfold run Ledger.debit
    simp only
    split
    · exact hnothing
    · exact ⟨.rebalance id (Ledger.debited amount), Store.after_map s _ _⟩
  | setBalance id balance =>
    unfold run Ledger.setBalance
    simp only
    split
    · exact hnothing
    · exact ⟨.rebalance id fun _ => .ok balance.toInt, rfl⟩
  | openWallet new => exact ⟨.openWallet new, rfl⟩
  | changeWallet id change => exact ⟨.changeWallet id change, rfl⟩
  | makeDefault owner id => exact ⟨.makeDefault owner id, rfl⟩
  | closeWallet id => exact ⟨.closeWallet id, rfl⟩

theorem Ledger.Op.besides_run (s : Store) (op : Ledger.Op) : (op.run s).besides = s.besides := by
  obtain ⟨call, hcall⟩ := op.run_eq_call s
  rw [hcall]
  exact call.besides_run s

end Clearing

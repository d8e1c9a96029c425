import Clearing.Proofs.Transactions

/-!
# Whatever is asked of the desk

All that can be asked of a desk, in any order, with time passing or the tasks
taking their turns one by one, a restart among it. Only what is asked of the
ledger directly changes the sum of all balances; every other operation
conserves it, the settlements that go on in the background included.
-/

namespace Clearing

/-! ### What is asked of the ledger -/

/-- One store becomes another by an operation of the ledger, or is left as it
was. -/
def Store.Ledgered (s s' : Store) : Prop := s' = s ∨ ∃ op : Ledger.Op, s' = op.run s

theorem Store.Ledgered.op (s : Store) (op : Ledger.Op) : s.Ledgered (op.run s) := .inr ⟨op, rfl⟩

namespace Ledger

theorem closeWallet_of_ledger {s : Store} {wallet : Nat} {p : Wallet × Store}
    (h : closeWallet s wallet = .ok p) : s.closeWallet wallet = .ok p := by
  unfold closeWallet at h
  cases hm : mayClose s wallet with
  | error fault =>
    rw [hm] at h
    cases h
  | ok _ =>
    rw [hm] at h
    cases hc : s.closeWallet wallet with
    | error fault =>
      rw [hc] at h
      cases h
    | ok q =>
      rw [hc] at h
      cases h
      rfl

theorem run_closeWallet {s : Store} {wallet : Nat} {p : Wallet × Store}
    (h : closeWallet s wallet = .ok p) : (Op.closeWallet wallet).run s = p.2 := by
  unfold Op.run
  simp only [closeWallet_of_ledger h]
  rfl

theorem ledgered_setDefault (s : Store) (user wallet : Nat) (currency : String) :
    s.Ledgered (s.after (setDefault s user wallet currency)) := by
  unfold setDefault
  cases mayBeDefault s user wallet currency with
  | error fault => exact .inl rfl
  | ok _ => exact .inr ⟨.makeDefault user wallet, Store.after_mapError ..⟩

theorem ledgered_changeWallet (s : Store) (wallet : Nat) (change : WalletChange) :
    s.Ledgered (s.after (changeWallet s wallet change)) :=
  .inr ⟨.changeWallet wallet _, Store.after_mapError ..⟩

theorem ledgered_closeWallet (s : Store) (wallet : Nat) :
    s.Ledgered (s.after (closeWallet s wallet)) := by
  cases h : closeWallet s wallet with
  | error fault => exact .inl rfl
  | ok q => exact .inr ⟨.closeWallet wallet, (run_closeWallet h).symm⟩

theorem ledgered_openWallet (s : Store) (new : NewWallet) :
    s.Ledgered (s.after (openWallet s new)) :=
  .inr ⟨.openWallet new, Store.after_mapError ..⟩

end Ledger

namespace Desk

/-- What can be asked of a desk. -/
inductive Op
  | credit (wallet : Nat) (amount : Int)
  | debit (wallet : Nat) (amount : Int)
  | setBalance (wallet : Nat) (balance : Int64)
  | setDefault (user wallet : Nat) (currency : String)
  | createWallet (user : Nat) (currency : String) (address : Option String) (isDefault : Bool)
  | changeWallet (wallet : Nat) (change : WalletChange)
  | closeWallet (wallet : Nat)
  | createPayment (id : String) (r : PaymentRequest)
  | submit (u : Update)
  | update (u : Update)
  | paymentStatus (id : String)
  | deliver (signature : Option String) (body : List UInt8)
  | serve (r : Http.Request)
  | watch (address : String) (network : Network) (observer : Observer)
  | cancelAddress (address : String)
  | cancelHandle (w : Watch)
  | stopWatches
  | lookup (tx : String)
  | createTransfer (r : TransferRequest)
  | attachTx (transfer sender : Nat) (tx : String)
  | settle (transfer times : Nat)
  | resumeWatches
  | resumeTransfers
  | resume
  | restart
  | stop
  /-- The node follows another script from now on. -/
  | script (node : Node.Script)
  | takeJournal
  | advance (time : Nat)
  | quiesce
  /-- A task has its turn, whether or not it is the next. -/
  | turn (task : Task)

namespace Op

/-- The desk after an operation, whatever the answer. -/
def run (d : Desk) : Op → Desk
  | .credit wallet amount => (d.transact (Ledger.credit · wallet amount)).2
  | .debit wallet amount => (d.transact (Ledger.debit · wallet amount)).2
  | .setBalance wallet balance => (d.transact (Ledger.setBalance · wallet balance.toInt)).2
  | .setDefault user wallet currency => (d.transact (Ledger.setDefault · user wallet currency)).2
  | .createWallet user currency address isDefault =>
    (d.createWallet user currency address isDefault).2
  | .changeWallet wallet change => (d.transact (Ledger.changeWallet · wallet change)).2
  | .closeWallet wallet => (d.transact (Ledger.closeWallet · wallet)).2
  | .createPayment id r => (d.createPayment id r).2
  | .submit u => (d.submit u).2
  | .update u => (d.update u).2
  | .paymentStatus id => (d.paymentStatus id).2
  | .deliver signature body => (d.deliver signature body).2
  | .serve r => (Http.handle d r).2
  | .watch address network observer => (d.watch address network observer).2
  | .cancelAddress address => (d.cancelAddress address).2
  | .cancelHandle w => d.cancelHandle w
  | .stopWatches => d.stopWatches
  | .lookup tx => (d.lookup tx).2
  | .createTransfer r => (d.createTransfer r).2
  | .attachTx transfer sender tx => (d.attachTx transfer sender tx).2
  | .settle transfer times => (d.settle transfer times).2
  | .resumeWatches => d.resumeWatches.2
  | .resumeTransfers => d.resumeTransfers.2
  | .resume => d.resume.2
  | .restart => d.restart
  | .stop => d.stop
  | .script node => { d with node }
  | .takeJournal => d.takeJournal.2
  | .advance time => d.advance time
  | .quiesce => d.quiesce
  | .turn task => d.turn task

def gain (d : Desk) : Op → Int
  | .credit wallet amount => if (Ledger.credit d.store wallet amount).isOk then amount else 0
  | .debit wallet amount => if (Ledger.debit d.store wallet amount).isOk then -amount else 0
  | .setBalance wallet balance =>
    if (Ledger.setBalance d.store wallet balance.toInt).isOk then
      balance.toInt - d.store.balance wallet
    else 0
  | .closeWallet wallet =>
    if (Ledger.closeWallet d.store wallet).isOk then -d.store.balance wallet else 0
  | _ => 0

end Op

def runOps (d : Desk) (ops : List Op) : Desk := ops.foldl Op.run d

def gainOf (d : Desk) : List Op → Int
  | [] => 0
  | op :: ops => op.gain d + (op.run d).gainOf ops

end Desk

namespace Desk

variable (d : Desk)

/-! ### Every operation -/

theorem leads_setDefault (user wallet : Nat) (currency : String) :
    d.store.Leads 0 (d.transact (Ledger.setDefault · user wallet currency)).2.store := by
  rw [store_transact]
  unfold Ledger.setDefault
  cases Ledger.mayBeDefault d.store user wallet currency with
  | error fault => exact .refl _
  | ok _ =>
    show d.store.Leads 0
      (d.store.after ((d.store.makeDefault user wallet).mapError LedgerFault.ofStore))
    rw [Store.after_mapError]
    exact .op (.makeDefault user wallet)

theorem leads_changeWallet (wallet : Nat) (change : WalletChange) :
    d.store.Leads 0 (d.transact (Ledger.changeWallet · wallet change)).2.store := by
  rw [store_transact]
  unfold Ledger.changeWallet
  simp only
  rw [Store.after_mapError]
  exact .op (.changeWallet wallet _)

theorem leads_closeWallet (wallet : Nat) :
    d.store.Leads ((Op.closeWallet wallet).gain d)
      (d.transact (Ledger.closeWallet · wallet)).2.store := by
  rw [store_transact]
  unfold Op.gain
  simp only
  cases hc : Ledger.closeWallet d.store wallet with
  | error fault => exact .refl _
  | ok p =>
    show d.store.Leads (-d.store.balance wallet) p.2
    rw [← Ledger.run_closeWallet hc]
    exact .op (.closeWallet wallet)

/-- Every operation leads from the store it finds to the one it leaves, with
its gain on the way. -/
theorem Op.leads_run (op : Op) : d.store.Leads (op.gain d) (op.run d).store := by
  cases op with
  | credit wallet amount =>
    unfold run
    rw [store_transact]
    exact .op (.credit wallet amount)
  | debit wallet amount =>
    unfold run
    rw [store_transact]
    exact .op (.debit wallet amount)
  | setBalance wallet balance =>
    unfold run
    rw [store_transact]
    exact .op (.setBalance wallet balance)
  | closeWallet wallet => exact leads_closeWallet d wallet
  | setDefault user wallet currency =>
    unfold run
    exact leads_setDefault d user wallet currency
  | createWallet user currency address isDefault =>
    unfold run
    exact leads_createWallet d user currency address isDefault
  | changeWallet wallet change =>
    unfold run
    exact leads_changeWallet d wallet change
  | createPayment id r => exact leads_createPayment d id r
  | submit u => exact .of_eq (store_submit d u)
  | update u => exact leads_update d u
  | paymentStatus id => exact leads_paymentStatus d id
  | deliver signature body => exact leads_deliver d signature body
  | serve r => exact leads_handle d r
  | watch address network observer => exact .of_eq (store_watch d address network observer)
  | lookup tx => exact leads_lookup d tx
  | createTransfer r => exact leads_createTransfer d r
  | attachTx transfer sender tx => exact leads_attachTx d transfer sender tx
  | settle transfer times => exact leads_settle d transfer times
  | resumeWatches => exact .of_eq (store_resumeWatches d)
  | resumeTransfers => exact .of_eq (store_resumeTransfers d)
  | resume => exact .of_eq (store_resume d)
  | advance time => exact leads_advance d time
  | quiesce => exact leads_quiesce d
  | turn task => exact leads_turn d task
  | cancelAddress | cancelHandle | stopWatches | restart | stop | script | takeJournal =>
    exact .of_eq rfl

theorem leads_runOps (ops : List Op) : d.store.Leads (d.gainOf ops) (d.runOps ops).store := by
  induction ops generalizing d with
  | nil => exact .refl _
  | cons op ops ih => exact (Op.leads_run d op).append (ih (op.run d))

theorem funds_runOps (hs : d.store.Sound) (ops : List Op) :
    (d.runOps ops).store.Sound ∧ (d.runOps ops).store.funds = d.store.funds + d.gainOf ops :=
  (leads_runOps d ops).funds hs

/-- **Settlements conserve the funds.** Whatever is asked of a desk with a sound
store, its store stays sound, and the funds change by what was credited, debited,
set or closed directly and by nothing else. An attempt on an unprocessed transfer
that is told a final depth ends with it completed and its amount moved, or failed
and no wallet touched; no refund is refused on the way. -/
theorem settlement_conserves (d : Desk) (hs : d.store.Sound) (ops : List Op) :
    let s := (d.runOps ops).store
    s.Sound ∧ s.funds = d.store.funds + d.gainOf ops ∧
    ∀ (policy : Policy) (a : Attempt) (tx : String) (depth : Int) (r : Transfer),
      s.transfers.get? a.transfer = some r → r.isProcessed = false → a.stage = .asking tx →
      finalDepth ≤ depth →
      (∃ status, ((a.heard policy (.ok depth)).proceed policy s).1.stage =
          .done (.ok (.settled { r with isProcessed := true, status })) ∧
        ((a.heard policy (.ok depth)).proceed policy s).2.1.transfers.get? a.transfer =
          some { r with isProcessed := true, status } ∧
        r.MovedOrNot s ((a.heard policy (.ok depth)).proceed policy s).2.1 status) ∧
      ∀ n, ((a.heard policy (.ok depth)).steps policy n s).1.deed?
        ((a.heard policy (.ok depth)).steps policy n s).2.1 ≠ some .refundRefused := by
  intro s
  obtain ⟨hs', hfunds⟩ := funds_runOps d hs ops
  refine ⟨hs', hfunds, fun policy a tx depth r hrow hopen hasks hfinal => ?_⟩
  exact Attempt.settled_whole policy hs' hrow hopen hasks hfinal

theorem settlement_conserves_twoWallets :
    ∃ r status, (World.empty.run .failFast World.twoWallets).store.transfers.get? 1 = some r ∧
      r.MovedOrNot (World.empty.run .failFast World.twoWallets).store
        (((Attempt.mk 1 (.asking World.firstTx)).heard .failFast (.ok 6)).proceed .failFast
          (World.empty.run .failFast World.twoWallets).store).2.1 status := by
  obtain ⟨-, -, h⟩ := settlement_conserves
    (.ofStore (World.empty.run .failFast World.twoWallets).store) (World.sound_run _) []
  obtain ⟨⟨status, -, -, hmoved⟩, -⟩ :=
    h .failFast (Attempt.mk 1 (.asking World.firstTx)) World.firstTx 6 _ rfl rfl rfl (by decide)
  exact ⟨_, status, rfl, hmoved⟩

end Desk
end Clearing

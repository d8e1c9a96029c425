import Clearing.Desk.Recovery
import Clearing.Http.Router
import Clearing.Proofs.Settlement

/-!
# What the service commits

`Store.Leads` lists what a desk can write to its store one after the other, with
what comes onto the funds in between. Every function of the desk leads from the
store it finds to the one it leaves, so what each of these writes preserves is
preserved by whatever the desk does.
-/

namespace Clearing

namespace Store

/-- A write of the service that is not asked of the ledger. An attempt is taken
on in one go here, from a stage before its first write to a balance. -/
inductive Commits (s : Store) : Store → Prop
  | merge {u o s'} (h : s.merge u = .ok (o, s')) : Commits s s'
  | addPayment {p s'} (h : s.addPayment p = .ok s') : Commits s s'
  | addTransfer {r : TransferRequest} {new} (h : r.check s = .ok new) :
      Commits s (s.addTransfer new).2
  | linkTx {id tx t s'} (h : s.linkTx id tx = .ok (some t, s')) : Commits s s'
  | proceed (policy : Policy) (a : Attempt) (ha : a.stage.isEarly = true) :
      Commits s (a.proceed policy s).2.1

/-- The writes lead from one store to the other and add so much to the funds. -/
inductive Leads : Store → Int → Store → Prop
  | refl (s) : Leads s 0 s
  | ledger {s gain s'} (op : Ledger.Op) (h : Leads (op.run s) gain s') :
      Leads s (op.gain s + gain) s'
  | commit {s s' gain s''} (h : s.Commits s') (h' : Leads s' gain s'') : Leads s gain s''

variable {s s' s'' : Store}

namespace Leads

theorem of_eq (h : s' = s) : s.Leads 0 s' := by
  rw [h]
  exact .refl s

theorem one (h : s.Commits s') : s.Leads 0 s' := .commit h (.refl s')

theorem op (op : Ledger.Op) : s.Leads (op.gain s) (op.run s) := by
  rw [← Int.add_zero (op.gain s)]
  exact .ledger op (.refl _)

theorem append {g g' : Int} (h : s.Leads g s') (h' : s'.Leads g' s'') : s.Leads (g + g') s'' := by
  induction h with
  | refl => rwa [Int.zero_add]
  | ledger op _ ih =>
    rw [Int.add_assoc]
    exact .ledger op (ih h')
  | commit hc _ ih => exact .commit hc (ih h')

theorem trans {g : Int} (h : s.Leads 0 s') (h' : s'.Leads g s'') : s.Leads g s'' := by
  rw [← Int.zero_add g]
  exact h.append h'

theorem invariant {P : Store → Prop} (hledger : ∀ s (op : Ledger.Op), P s → P (op.run s))
    (hcommit : ∀ s s', P s → s.Commits s' → P s') {g : Int} (h : s.Leads g s') (hs : P s) :
    P s' := by
  induction h with
  | refl => exact hs
  | ledger op _ ih => exact ih (hledger _ op hs)
  | commit hc _ ih => exact ih (hcommit _ _ hs hc)

end Leads

theorem linkTx_eq_some {id : Nat} {tx : String} {t : Transfer}
    (h : s.linkTx id tx = .ok (some t, s')) :
    ∃ r, s.transfers.get? id = some r ∧ r.isProcessed = false ∧
      t = { r with linkedTx := some tx } ∧ s' = s.putTransfer { r with linkedTx := some tx } := by
  unfold linkTx at h
  cases hr : s.transfers.get? id with
  | none =>
    rw [modifyUnprocessed_of_none hr] at h
    cases h
  | some r =>
    cases hp : r.isProcessed with
    | true =>
      rw [modifyUnprocessed_of_processed hr hp] at h
      cases h
    | false =>
      rw [modifyUnprocessed_of_open hr hp] at h
      cases h
      exact ⟨r, rfl, hp, rfl, rfl⟩

theorem merge_eq_ok {u : Update} {o : Outcome} (h : s.merge u = .ok (o, s')) :
    ∃ p, s.payment u.paymentId = .ok p ∧ o = p.outcome u ∧
      s' = if p.merged u = p then s else s.putPayment (p.merged u) := by
  unfold merge at h
  split at h
  · cases h
  · rename_i p hp
    cases h
    exact ⟨p, hp, rfl, rfl⟩

theorem addPayment_eq_ok {p : Payment} (h : s.addPayment p = .ok s') :
    s.payments.get? p.id = none ∧ s' = s.putPayment p := by
  unfold addPayment at h
  split at h
  · cases h
  · rename_i hnew
    cases h
    unfold Table.contains at hnew
    exact ⟨by simpa using hnew, rfl⟩

theorem removePayment_putPayment {p : Payment} (h : s.payments.get? p.id = none) :
    ((s.putPayment p).removePayment p.id).2 = s :=
  congrArg (fun payments => { s with payments }) (Table.erase_insert h)

theorem Commits.funds (h : s.Commits s') (hs : s.Sound) : s'.Sound ∧ s'.funds = s.funds := by
  cases h with
  | merge h =>
    obtain ⟨p, -, -, rfl⟩ := merge_eq_ok h
    split
    · exact ⟨hs, rfl⟩
    · exact ⟨hs.congr rfl rfl rfl rfl, rfl⟩
  | addPayment h =>
    obtain ⟨-, rfl⟩ := addPayment_eq_ok h
    exact ⟨hs.congr rfl rfl rfl rfl, rfl⟩
  | addTransfer h => exact ⟨hs.addTransfer _, rfl⟩
  | linkTx h =>
    obtain ⟨r, hr, -, -, rfl⟩ := linkTx_eq_some h
    exact ⟨hs.rewrite hr rfl, rfl⟩
  | proceed policy a ha => exact Attempt.funds_proceed policy hs a ha

theorem Leads.funds {g : Int} (h : s.Leads g s') (hs : s.Sound) :
    s'.Sound ∧ s'.funds = s.funds + g := by
  induction h with
  | refl => exact ⟨hs, (Int.add_zero _).symm⟩
  | ledger op _ ih =>
    have hmoves := op.moves_run hs
    obtain ⟨hs', hfunds⟩ := ih hmoves.sound
    exact ⟨hs', by rw [hfunds, hmoves.funds, Int.add_assoc]⟩
  | commit hc _ ih =>
    obtain ⟨hs', hfunds⟩ := hc.funds hs
    obtain ⟨hs'', hfunds'⟩ := ih hs'
    exact ⟨hs'', hfunds'.trans (by rw [hfunds])⟩

end Store

namespace Desk

variable (d : Desk)

/-! ### Watches

Nothing that a watch does touches the store: what it sees goes to the inbox or
to the journal. -/

theorem store_submit (u : Update) : (d.submit u).2.store = d.store := by
  unfold submit
  split
  · rfl
  · simp only
    split <;> rfl

theorem store_report (w : Watch) (seen : Sighting) : (d.report w seen).store = d.store := by
  unfold report
  split
  · exact store_submit d _
  · rfl

theorem store_answerLookup (w : Watch) (tx : String) : (d.answerLookup w tx).store = d.store := by
  unfold answerLookup
  split
  · exact store_report d w _
  · rfl

theorem store_pauseWatch (w : Watch) (time : Nat) : (d.pauseWatch w time).store = d.store := by
  unfold pauseWatch
  split <;> rfl

theorem store_goThrough (w : Watch) (page : List String) :
    (d.goThrough w page).store = d.store := by
  induction page generalizing d with
  | nil => exact store_pauseWatch d w _
  | cons tx rest ih =>
    unfold goThrough
    split
    · rfl
    · exact ih d
    · simp only
      split
      · rw [ih, store_answerLookup]
        rfl
      · rfl

theorem store_hearSearch (w : Watch) (address : String) :
    (d.hearSearch w address).store = d.store := by
  unfold hearSearch
  split
  · exact store_pauseWatch _ w _
  · exact store_goThrough _ w _

theorem store_beginPoll (w : Watch) : (d.beginPoll w).store = d.store := by
  unfold beginPoll
  split
  · rfl
  · split
    · exact store_pauseWatch d w _
    · simp only
      split
      · rw [store_hearSearch]
        rfl
      · rfl

theorem store_resumeWatch (w : Watch) (stage : Watch.Stage) :
    (d.resumeWatch w stage).store = d.store := by
  cases stage with
  | pausing => exact store_beginPoll d w
  | searching address => exact store_hearSearch d w address
  | looking tx rest =>
    show ((d.answerLookup w tx).goThrough w rest).store = d.store
    rw [store_goThrough, store_answerLookup]

theorem store_watch (address : String) (network : Network) (observer : Observer) :
    (d.watch address network observer).2.store = d.store := by
  unfold watch
  split <;> rfl

theorem store_watchAll (started : Nat) (ps : List Payment) :
    (d.watchAll started ps).2.store = d.store := by
  induction ps generalizing d started with
  | nil => rfl
  | cons p ps ih =>
    have hwatch := store_watch d p.receivingAddress d.options.network (.payment p.id)
    unfold watchAll watchPayment
    split
    · rename_i h
      rw [h] at hwatch
      rw [ih]
      exact hwatch
    · rename_i h
      rw [h] at hwatch
      rw [ih]
      exact hwatch
    · rename_i h
      rw [h] at hwatch
      exact hwatch

theorem store_resumeWatches : d.resumeWatches.2.store = d.store := by
  unfold resumeWatches
  split
  · rfl
  · exact store_watchAll d 0 _

/-! ### Wallets and payments -/

theorem transact_eq {ε α : Type} (run : Store → Except ε (α × Store)) :
    (d.transact run).2 = { d with store := d.store.after (run d.store) } := by
  unfold transact Store.after
  cases run d.store <;> rfl

theorem store_transact {ε α : Type} (run : Store → Except ε (α × Store)) :
    (d.transact run).2.store = d.store.after (run d.store) :=
  congrArg Desk.store (d.transact_eq run)

theorem store_freshAddress : d.freshAddress.2.store = d.store := rfl

theorem leads_openWallet (new : NewWallet) :
    d.store.Leads 0 (d.transact (Ledger.openWallet · new)).2.store := by
  rw [store_transact]
  unfold Ledger.openWallet
  rw [Store.after_mapError]
  exact .op (.openWallet new)

theorem leads_createWallet (user : Nat) (currency : String) (address : Option String)
    (isDefault : Bool) :
    d.store.Leads 0 (d.createWallet user currency address isDefault).2.store := by
  unfold createWallet
  split
  · exact .of_eq rfl
  · split
    · exact .of_eq rfl
    · exact leads_openWallet d _
    · split
      · rename_i h
        exact .of_eq (by rw [← store_freshAddress d, h])
      · rename_i d' h
        have hstore : d'.store = d.store := by rw [← store_freshAddress d, h]
        rw [← hstore]
        exact leads_openWallet d' _

theorem store_announce (o : Outcome) : (d.announce o).store = d.store := by
  cases o with
  | applied p =>
    unfold announce
    simp only
    split <;> rfl
  | unchanged p => rfl
  | stale p => rfl

theorem store_apply (u : Update) : (d.apply u).2.store = d.store.after (d.store.merge u) := by
  unfold apply Store.after
  cases d.store.merge u with
  | error fault => rfl
  | ok p => exact store_announce _ p.1

theorem leads_apply (u : Update) : d.store.Leads 0 (d.apply u).2.store := by
  rw [store_apply]
  cases h : d.store.merge u with
  | error fault => exact .refl _
  | ok p => exact .one (.merge h)

/-- Merges updates one after the other; one that fails is dropped. -/
def mergeAll (d : Desk) (us : List Update) : Desk := us.foldl (fun d u => (d.apply u).2) d

theorem mergeInbox_eq (d : Desk) : d.mergeInbox = { d with inbox := [] }.mergeAll d.inbox := rfl

theorem leads_mergeAll (us : List Update) : d.store.Leads 0 (d.mergeAll us).store := by
  induction us generalizing d with
  | nil => exact .refl _
  | cons u us ih => exact (leads_apply d u).trans (ih (d.apply u).2)

theorem leads_mergeInbox : d.store.Leads 0 d.mergeInbox.store := by
  rw [mergeInbox_eq]
  exact leads_mergeAll { d with inbox := [] } d.inbox

theorem leads_update (u : Update) : d.store.Leads 0 (d.update u).2.store := by
  unfold update
  split
  · exact .of_eq rfl
  · exact leads_apply d u

theorem leads_createPayment (id : String) (r : PaymentRequest) :
    d.store.Leads 0 (d.createPayment id r).2.store := by
  unfold createPayment
  split
  · exact .of_eq rfl
  · split
    · rename_i h
      exact .of_eq (by rw [← store_freshAddress d, h])
    · rename_i d' h
      have hstore : d'.store = d.store := by rw [← store_freshAddress d, h]
      rw [← hstore]
      simp only
      split
      · exact .of_eq rfl
      · rename_i store hadd
        have hwatch : ∀ p, (watchPayment { d' with store } p).2.store = store :=
          fun p => store_watch { d' with store } _ _ _
        split
        · rename_i hw
          rw [← hwatch, hw] at hadd
          exact .one (.addPayment hadd)
        · rename_i d'' hw
          have hd'' : d''.store = store := by rw [← hwatch _, hw]
          obtain ⟨hnew, hput⟩ := Store.addPayment_eq_ok hadd
          refine .of_eq ?_
          show (d''.store.removePayment id).2 = d'.store
          rw [hd'', hput]
          exact Store.removePayment_putPayment hnew

/-! ### Transfers -/

theorem leads_proceed (a : Attempt) (ha : a.stage.isEarly = true) :
    d.store.Leads 0 (d.proceed a).2.store :=
  .one (.proceed d.options.policy a ha)

theorem leads_hearAttempt (a : Attempt) : d.store.Leads 0 (d.hearAttempt a).2.store := by
  unfold hearAttempt
  split
  · rename_i tx hs
    refine leads_proceed d _ ?_
    unfold Attempt.heard
    simp only [hs]
    exact Attempt.isEarly_decide _ _
  · exact .of_eq rfl

theorem leads_beginAttempt (transfer : Nat) :
    d.store.Leads 0 (d.beginAttempt transfer).2.store := by
  have hstart : d.store.Leads 0 (d.proceed (.start transfer)).2.store :=
    leads_proceed d _ rfl
  unfold beginAttempt
  generalize d.proceed (.start transfer) = p at hstart
  obtain ⟨a, d'⟩ := p
  simp only
  split
  · rename_i tx _
    split
    · exact hstart.trans (leads_hearAttempt (d'.noteCall (.lookup tx)) a)
    · exact hstart
  · exact hstart

theorem store_followAttempt (a : Attempt) : (d.followAttempt a).store = d.store := by
  unfold followAttempt
  split
  · rfl
  · split <;> rfl
  · rfl

theorem leads_resumeAttempt (a : Attempt) : d.store.Leads 0 (d.resumeAttempt a).store := by
  unfold resumeAttempt
  simp only [store_followAttempt]
  split
  · exact leads_hearAttempt d a
  · exact leads_beginAttempt d a.transfer

theorem leads_retry (transfer : Nat) : d.store.Leads 0 (d.retry transfer).store := by
  unfold retry
  split
  · exact .of_eq rfl
  · simp only [store_followAttempt]
    exact leads_beginAttempt d transfer

theorem leads_createTransfer (r : TransferRequest) :
    d.store.Leads 0 (d.createTransfer r).2.store := by
  unfold createTransfer Store.requestTransfer
  cases h : r.check d.store with
  | error fault => exact .of_eq rfl
  | ok new => exact .one (.addTransfer h)

theorem linkTx_of_attachTx {s store : Store} {transfer sender : Nat} {tx : String} {t : Transfer}
    (h : s.attachTx transfer sender tx = .ok (t, store)) :
    s.linkTx transfer tx = .ok (some t, store) := by
  unfold Store.attachTx at h
  cases hm : s.mayAttach transfer sender tx with
  | error fault => simp [hm, bind, Except.bind] at h
  | ok _ =>
    cases hl : s.linkTx transfer tx with
    | error fault => simp [hm, hl, bind, Except.bind, Except.mapError] at h
    | ok p =>
      obtain ⟨o, s'⟩ := p
      cases o with
      | none =>
        simp [hm, hl, bind, Except.bind, Except.mapError, throw, throwThe,
          MonadExceptOf.throw] at h
      | some t' =>
        simp only [hm, hl, bind, Except.bind, Except.mapError, pure, Except.pure,
          Except.ok.injEq, Prod.mk.injEq] at h
        rw [h.1, h.2]

theorem leads_attachTx (transfer sender : Nat) (tx : String) :
    d.store.Leads 0 (d.attachTx transfer sender tx).2.store := by
  unfold attachTx
  split
  · exact .of_eq rfl
  · rename_i t store h
    exact .one (.linkTx (linkTx_of_attachTx h))

theorem store_resumeTransfers : d.resumeTransfers.2.store = d.store := by
  have hall : ∀ (ts : List Transfer) (d : Desk),
      (ts.foldl (fun d t => d.schedule t.id) d).store = d.store := by
    intro ts
    induction ts with
    | nil => exact fun d => rfl
    | cons t ts ih => exact fun d => ih (d.schedule t.id)
  exact hall _ d

theorem store_resume : d.resume.2.store = d.store := by
  have hwatches := store_resumeWatches d
  unfold resume
  split
  · rename_i h
    rw [h] at hwatches
    exact hwatches
  · rename_i h
    rw [h] at hwatches
    exact (store_resumeTransfers _).trans hwatches

/-! ### Time -/

theorem leads_runJob (job : Job) : d.store.Leads 0 (d.runJob job).store := by
  cases job with
  | merge => exact leads_mergeInbox d
  | watch w stage => exact .of_eq (store_resumeWatch d w stage)
  | settle a => exact leads_resumeAttempt d a
  | retry transfer => exact leads_retry d transfer

theorem leads_turn (task : Task) : d.store.Leads 0 (d.turn task).store :=
  leads_runJob { d with
    now := max d.now (d.dueAt task)
    tasks := d.tasks.filter (·.ticket != task.ticket) } task.job

theorem leads_runFor (time turns : Nat) : d.store.Leads 0 (runFor time turns d).store := by
  induction turns generalizing d with
  | zero => exact .of_eq rfl
  | succ turns ih =>
    unfold runFor
    split
    · exact .of_eq rfl
    · split
      · exact (leads_turn d _).trans (ih _)
      · exact .of_eq rfl

theorem leads_advance (time : Nat) : d.store.Leads 0 (d.advance time).store := by
  unfold advance runBefore
  exact leads_runFor d _ _

theorem leads_quiesce : d.store.Leads 0 d.quiesce.store := by
  unfold quiesce runBefore
  exact leads_runFor d _ _

theorem leads_await (delay : Nat) : d.store.Leads 0 (d.await delay).store := by
  unfold await
  split
  · exact .of_eq rfl
  · exact leads_runFor d _ _

theorem leads_lookup (tx : String) : d.store.Leads 0 (d.lookup tx).2.store :=
  leads_await (d.noteCall (.lookup tx)) _

theorem leads_paymentStatus (id : String) :
    d.store.Leads 0 (d.paymentStatus id).2.store := by
  unfold paymentStatus
  split
  · exact .of_eq rfl
  · split
    · exact .of_eq rfl
    · rename_i tx _
      have hlookup := leads_lookup d tx
      split
      · rename_i h
        rw [h] at hlookup
        exact hlookup
      · rename_i h
        rw [h] at hlookup
        exact hlookup

theorem leads_beginAttempts (transfer times : Nat) :
    d.store.Leads 0 (d.beginAttempts transfer times).2.store := by
  induction times generalizing d with
  | zero => exact .of_eq rfl
  | succ times ih =>
    have hrest := ih (d.beginAttempt transfer).2
    exact (leads_beginAttempt d transfer).trans hrest

theorem leads_hearAttempts (attempts : List Attempt) :
    d.store.Leads 0 (d.hearAttempts attempts).2.store := by
  induction attempts generalizing d with
  | nil => exact .of_eq rfl
  | cons a rest ih =>
    have hrest := ih (d.hearAttempt a).2
    exact (leads_hearAttempt d a).trans hrest

theorem leads_settle (transfer times : Nat) :
    d.store.Leads 0 (d.settle transfer times).2.store := by
  have hbegin := leads_beginAttempts d transfer times
  unfold settle
  simp only
  split
  · exact hbegin.trans ((leads_await _ _).trans (leads_hearAttempts _ _))
  · exact hbegin.trans (leads_hearAttempts _ _)

/-! ### Requests over HTTP -/

theorem leads_deliver (signature : Option String) (body : List UInt8) :
    d.store.Leads 0 (d.deliver signature body).2.store := by
  unfold deliver
  split
  · exact .of_eq rfl
  · exact leads_update d _

theorem leads_answer (r : Http.Request) (route : Http.Route) :
    d.store.Leads 0 (Http.answer d r route).2.store := by
  cases route with
  | ready => exact .of_eq rfl
  | live => exact .of_eq rfl
  | paymentStatus segment =>
    show d.store.Leads 0 (Http.answerStatus d segment).2.store
    unfold Http.answerStatus
    simp only
    split
    · exact .of_eq rfl
    · rename_i id _
      have hstatus := leads_paymentStatus d id
      split
      · rename_i h
        rw [h] at hstatus
        exact hstatus
      · rename_i h
        rw [h] at hstatus
        exact hstatus
  | webhook =>
    show d.store.Leads 0 (Http.answerDelivery d r).2.store
    have hdeliver := leads_deliver d r.signature r.body
    unfold Http.answerDelivery
    split
    · rename_i h
      rw [h] at hdeliver
      exact hdeliver
    · rename_i h
      rw [h] at hdeliver
      exact hdeliver

theorem leads_handle (r : Http.Request) : d.store.Leads 0 (Http.handle d r).2.store := by
  unfold Http.handle
  split
  · exact .of_eq rfl
  · split
    · exact .of_eq rfl
    · rename_i route _
      split
      · exact leads_answer d r route
      · split
        · exact leads_answer d r route
        · exact .of_eq rfl

end Desk
end Clearing

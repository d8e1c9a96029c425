import Clearing.Proofs.PaymentProgress

/-!
# What a desk does to its payments and watches

`Desk.TrackStep` lists what becomes of the payments, of the registry and of the
updates that wait, with the addresses that the node hands out for payments; all
else passes them by. Every function of the desk is a sequence of such steps, so
what each step preserves is preserved by whatever the desk does. What was noted
in the journal stays in it; taking the journal out is no step.
-/

namespace Clearing

/-! ### Statuses that trackers and the provider propose -/

theorem Watch.inWindow_of_heard {tx id : String} {answer : Except NodeFault Int} {seen : Sighting}
    (h : heard tx answer = some seen) : (Update.ofSighting id seen).status.InWindow := by
  cases answer with
  | error fault => cases h
  | ok depth =>
    cases h
    exact Status.inWindow_ofDepth depth

theorem Webhook.inWindow_of_read {body : List UInt8} {payload : Webhook.Payload}
    (h : Webhook.Payload.read body = .ok payload) : payload.status.InWindow := by
  unfold Webhook.Payload.read at h
  split at h
  · cases h
  · split at h
    · cases h
    · rename_i status hstatus
      cases h
      exact Status.inWindow_of_parse hstatus

/-! ### Listing the payments -/

namespace Store

theorem mem_rows_iff {s : Store} {p : Payment} :
    p ∈ s.payments.rows ↔ ∃ id, s.payments.get? id = some p := by
  unfold Table.rows
  rw [List.mem_map]
  constructor
  · rintro ⟨⟨id, q⟩, hmem, rfl⟩
    exact ⟨id, (Table.mem_iff_get? ..).mp hmem⟩
  · rintro ⟨id, hp⟩
    exact ⟨(id, p), (Table.mem_iff_get? ..).mpr hp, rfl⟩

theorem mapM_reread_eq_ok {ps qs : List Payment} :
    ps.mapM Payment.reread = .ok qs ↔ qs = ps ∧ ∀ p ∈ ps, p.status.InWindow := by
  induction ps generalizing qs with
  | nil => simp [pure, Except.pure, eq_comm]
  | cons p ps ih =>
    rw [List.mapM_cons, Payment.reread_eq]
    by_cases hp : p.status.InWindow
    · rw [if_pos hp]
      cases hrest : ps.mapM Payment.reread with
      | error fault =>
        simp only [bind, Except.bind, reduceCtorEq, false_iff, not_and]
        rintro - hall
        have hok := ih.mpr ⟨rfl, fun q hq => hall q (List.mem_cons_of_mem _ hq)⟩
        rw [hrest] at hok
        cases hok
      | ok rest =>
        obtain ⟨rfl, hall⟩ := ih.mp hrest
        simp only [bind, Except.bind, pure, Except.pure, Except.ok.injEq, List.forall_mem_cons]
        exact ⟨fun h => ⟨h.symm, hp, hall⟩, fun h => h.1.symm⟩
    · rw [if_neg hp]
      simp [bind, Except.bind, hp]

theorem unfinishedPayments_eq_ok {s : Store} {ps : List Payment} :
    s.unfinishedPayments = .ok ps ↔
      ps = s.payments.rows.filter (fun p => !p.status.isTerminal) ∧
        ∀ p ∈ s.payments.rows, p.status.InWindow := by
  unfold unfinishedPayments
  cases hall : s.payments.rows.mapM Payment.reread with
  | error fault =>
    simp only [bind, Except.bind, reduceCtorEq, false_iff, not_and]
    rintro - hread
    rw [mapM_reread_eq_ok.mpr ⟨rfl, hread⟩] at hall
    cases hall
  | ok all =>
    obtain ⟨rfl, hread⟩ := mapM_reread_eq_ok.mp hall
    simp only [bind, Except.bind, pure, Except.pure, Except.ok.injEq]
    exact ⟨fun h => ⟨h.symm, hread⟩, fun h => h.1.symm⟩

theorem unfinishedPayments_of_readable {s : Store}
    (hread : ∀ {id p}, s.payments.get? id = some p → p.status.InWindow) :
    s.unfinishedPayments = .ok (s.payments.rows.filter fun p => !p.status.isTerminal) :=
  unfinishedPayments_eq_ok.mpr ⟨rfl, fun p hp => by
    obtain ⟨id, hid⟩ := mem_rows_iff.mp hp
    exact hread hid⟩

end Store

namespace Desk

theorem inWindow_of_requestedUpdate {d : Desk} {signature : Option String} {body : List UInt8}
    {u : Update} (h : d.requestedUpdate signature body = .ok u) : u.status.InWindow := by
  unfold requestedUpdate at h
  cases ha : d.authenticate signature body with
  | error fault => simp [ha, bind, Except.bind] at h
  | ok _ =>
    cases hread : Webhook.Payload.read body with
    | error fault => simp [ha, hread, bind, Except.bind] at h
    | ok payload =>
      cases hc : d.checkAddress payload with
      | error fault => simp [ha, hread, hc, bind, Except.bind] at h
      | ok _ =>
        simp only [ha, hread, hc, bind, Except.bind, pure, Except.pure, Except.ok.injEq] at h
        rw [← h]
        exact Webhook.inWindow_of_read hread

/-! ### Steps -/

/-- What passes payments, watches and waiting updates by. -/
inductive Aside (d : Desk) : Desk → Prop
  | wait (now ticket : Nat) (tasks : List Task) : Aside d { d with now, ticket, tasks }
  | ask (node : Node.Script) (calls : List Call) :
      Aside d { d with node, journal := { d.journal with calls } }
  | see (sightings : List (String × Sighting)) :
      Aside d { d with journal := { d.journal with sightings } }
  | ledger (op : Ledger.Op) : Aside d { d with store := op.run d.store }
  | addTransfer (new : NewTransfer) : Aside d { d with store := (d.store.addTransfer new).2 }
  | linkTx {id tx t store} (h : d.store.linkTx id tx = .ok (some t, store)) :
      Aside d { d with store }
  | proceed (a : Attempt) (ha : a.stage.isEarly = true) : Aside d (d.proceed a).2

/-- What callers do to the watches of a desk on their own account. -/
inductive Meddled (d : Desk) : Desk → Prop
  | watch (address network observer) : Meddled d (d.watch address network observer).2
  | cancelAddress (address) : Meddled d (d.cancelAddress address).2
  | cancelHandle (w) : Meddled d (d.cancelHandle w)
  | stopWatches : Meddled d d.stopWatches
  | stop : Meddled d d.stop
  | restart : Meddled d d.restart

/-- One step of a desk, with the addresses that the node hands out for
payments in it. With `free` the callers are free to meddle, and to propose
statuses that do not read back. -/
inductive TrackStep (free : Prop) (d : Desk) : List String → Desk → Prop
  | aside {d'} (h : d.Aside d') : TrackStep free d [] d'
  | submit {u : Update} (hu : free ∨ u.status.InWindow) : TrackStep free d [] (d.submit u).2
  | apply {u : Update} (hu : free ∨ u.status.InWindow) : TrackStep free d [] (d.apply u).2
  | mergeInbox : TrackStep free d [] d.mergeInbox
  | waste (address : String) : TrackStep free d [address] d
  | openPayment {p : Payment} {w registry} (hnew : d.store.payments.get? p.id = none)
      (hwaits : p.status = .waiting)
      (hw : d.registry.register p.receivingAddress d.options.network (.payment p.id) =
        .ok (w, registry)) :
      TrackStep free d [p.receivingAddress]
        ({ d with store := d.store.putPayment p, registry }.later 0 (.watch w .pausing))
  | rewatch {id : String} {p : Payment} (hp : d.store.payments.get? id = some p)
      (hopen : p.status.endsWatch = false) : TrackStep free d [] (d.watchPayment p).2
  | endWatch {w : Watch} (hw : d.isCancelled w = true) : TrackStep free d [] (d.endWatch w)
  | meddle {d'} (hf : free) (h : d.Meddled d') : TrackStep free d [] d'

/-- Steps one after the other, with all addresses handed out for payments. -/
inductive TrackSteps (free : Prop) : Desk → List String → Desk → Prop
  | refl (d) : TrackSteps free d [] d
  | cons {d d' d'' as bs} (h : d.TrackStep free as d') (h' : TrackSteps free d' bs d'') :
      TrackSteps free d (as ++ bs) d''

variable {free : Prop} {d d' d'' : Desk} {as bs : List String}

namespace TrackSteps

theorem one (h : d.TrackStep free as d') : d.TrackSteps free as d' := by
  have hcons := TrackSteps.cons h (.refl d')
  rwa [List.append_nil] at hcons

theorem aside (h : d.Aside d') : d.TrackSteps free [] d' := one (.aside h)

theorem append (h : d.TrackSteps free as d') (h' : d'.TrackSteps free bs d'') :
    d.TrackSteps free (as ++ bs) d'' := by
  induction h with
  | refl => exact h'
  | cons hs _ ih =>
    rw [List.append_assoc]
    exact .cons hs (ih h')

theorem trans (h : d.TrackSteps free [] d') (h' : d'.TrackSteps free bs d'') :
    d.TrackSteps free bs d'' :=
  h.append h'

theorem invariant {P : List String → Desk → Prop} {used : List String}
    (hstep : ∀ {used d as d'}, (used ++ as).Nodup → P used d → d.TrackStep free as d' →
      P (used ++ as) d')
    (h : d.TrackSteps free as d') (hfresh : (used ++ as).Nodup) (hd : P used d) :
    P (used ++ as) d' := by
  induction h generalizing used with
  | refl =>
    rw [List.append_nil]
    exact hd
  | cons hs _ ih =>
    rw [← List.append_assoc] at hfresh ⊢
    exact ih hfresh (hstep (List.nodup_append.mp hfresh).1 hd hs)

theorem always {P : Desk → Prop} (hstep : ∀ {d as d'}, P d → d.TrackStep free as d' → P d')
    (h : d.TrackSteps free as d') (hd : P d) : P d' := by
  induction h with
  | refl => exact hd
  | cons hs _ ih => exact ih (hstep hd hs)

end TrackSteps

/-! ### Watches -/

section Watches

variable (d)

theorem trackSteps_later (delay : Nat) (job : Job) : d.TrackSteps free [] (d.later delay job) :=
  .aside (.wait d.now _ _)

theorem trackSteps_noteCall (call : Call) : d.TrackSteps free [] (d.noteCall call) :=
  .aside (.ask d.node _)

theorem trackSteps_report (w : Watch) {tx : String} {answer : Except NodeFault Int}
    {seen : Sighting} (hseen : Watch.heard tx answer = some seen) :
    d.TrackSteps free [] (d.report w seen) := by
  unfold report
  split
  · exact .one (.submit (.inr (Watch.inWindow_of_heard hseen)))
  · exact .aside (.see _)

theorem trackSteps_answerLookup (w : Watch) (tx : String) :
    d.TrackSteps free [] (d.answerLookup w tx) := by
  unfold answerLookup
  split
  · rename_i seen hseen
    exact trackSteps_report d w hseen
  · exact .refl d

theorem trackSteps_pauseWatch (w : Watch) (time : Nat) :
    d.TrackSteps free [] (d.pauseWatch w time) := by
  unfold pauseWatch
  split
  · rename_i hw
    exact .one (.endWatch hw)
  · exact trackSteps_later d time _

theorem trackSteps_goThrough (w : Watch) (page : List String) :
    d.TrackSteps free [] (d.goThrough w page) := by
  induction page generalizing d with
  | nil => exact trackSteps_pauseWatch d w _
  | cons tx rest ih =>
    unfold goThrough
    split
    · rename_i hglance
      have hw : d.isCancelled w = true := by
        unfold Watch.glance at hglance
        split at hglance
        · assumption
        · split at hglance <;> cases hglance
      exact .one (.endWatch hw)
    · exact ih d
    · refine (trackSteps_noteCall d (.lookup tx)).trans ?_
      simp only
      split
      · exact (trackSteps_answerLookup _ w tx).trans (ih _)
      · exact trackSteps_later _ _ _

theorem trackSteps_hearSearch (w : Watch) (address : String) :
    d.TrackSteps free [] (d.hearSearch w address) := by
  unfold hearSearch
  split
  · rename_i node _
    exact (TrackSteps.aside (.ask node _)).trans (trackSteps_pauseWatch { d with node } w _)
  · rename_i page node _
    exact (TrackSteps.aside (.ask node _)).trans (trackSteps_goThrough { d with node } w page)

theorem trackSteps_beginPoll (w : Watch) : d.TrackSteps free [] (d.beginPoll w) := by
  unfold beginPoll
  split
  · rename_i hw
    exact .one (.endWatch hw)
  · split
    · exact trackSteps_pauseWatch d w _
    · rename_i address _
      refine (trackSteps_noteCall d (.search address.text 0 d.options.timing.pageSize)).trans ?_
      simp only
      split
      · exact trackSteps_hearSearch _ w _
      · exact trackSteps_later _ _ _

theorem trackSteps_resumeWatch (w : Watch) (stage : Watch.Stage) :
    d.TrackSteps free [] (d.resumeWatch w stage) := by
  cases stage with
  | pausing => exact trackSteps_beginPoll d w
  | searching address => exact trackSteps_hearSearch d w address
  | looking tx rest => exact (trackSteps_answerLookup d w tx).trans (trackSteps_goThrough _ w rest)

theorem trackSteps_watchAll (started : Nat) (ps : List Payment)
    (hps : ∀ p ∈ ps, (∃ id, d.store.payments.get? id = some p) ∧ p.status.endsWatch = false) :
    d.TrackSteps free [] (d.watchAll started ps).2 := by
  induction ps generalizing d started with
  | nil => exact .refl d
  | cons p ps ih =>
    obtain ⟨⟨id, hp⟩, hopen⟩ := hps p List.mem_cons_self
    have hwatch : d.TrackSteps free [] (d.watchPayment p).2 := .one (.rewatch hp hopen)
    have hstore : (d.watchPayment p).2.store = d.store := store_watch d _ _ _
    have hrest : ∀ q ∈ ps, (∃ id, (d.watchPayment p).2.store.payments.get? id = some q) ∧
        q.status.endsWatch = false := by
      rw [hstore]
      exact fun q hq => hps q (List.mem_cons_of_mem _ hq)
    unfold watchAll
    split
    · rename_i h
      rw [h] at hwatch hrest
      exact hwatch.trans (ih _ _ hrest)
    · rename_i h
      rw [h] at hwatch hrest
      exact hwatch.trans (ih _ _ hrest)
    · rename_i h
      rw [h] at hwatch
      exact hwatch

end Watches

/-! ### Payments -/

/-- Opens a payment at the address it carries. -/
def openPayment (d : Desk) (p : Payment) : Except ServiceFault Payment × Desk :=
  match d.store.addPayment p with
  | .error fault => (.error (.ofStore fault), d)
  | .ok store =>
    match { d with store }.watchPayment p with
    | (.ok _, d) => (.ok p, d)
    | (.error fault, d) =>
      (.error (.watch fault), { d with store := (d.store.removePayment p.id).2 })

def anyRequest : PaymentRequest :=
  { owner := 1, amount := 10, merchantWallet := "m", currency := "BTC" }

theorem createPayment_eq (d : Desk) (id : String) (r : PaymentRequest) :
    d.createPayment id r =
      match r.check with
      | .error fault => (.error fault, d)
      | .ok r =>
        match d.freshAddress with
        | (.error fault, d) => (.error (.node fault), d)
        | (.ok address, d) => d.openPayment (.opened d.options.baseUrl id address r) := rfl

theorem openPayment_cases (d : Desk) (p : Payment) :
    (∃ fault, d.openPayment p = (.error fault, d)) ∨
    ∃ w registry, d.store.payments.get? p.id = none ∧
      d.registry.register p.receivingAddress d.options.network (.payment p.id) =
        .ok (w, registry) ∧
      d.openPayment p = (.ok p,
        { d with store := d.store.putPayment p, registry }.later 0 (.watch w .pausing)) := by
  unfold openPayment
  cases hadd : d.store.addPayment p with
  | error fault => exact .inl ⟨_, rfl⟩
  | ok store =>
    obtain ⟨hnew, rfl⟩ := Store.addPayment_eq_ok hadd
    simp only [watchPayment, watch]
    cases hw : d.registry.register p.receivingAddress d.options.network (.payment p.id) with
    | error fault =>
      refine .inl ⟨.watch fault, ?_⟩
      simp only [Store.removePayment_putPayment hnew]
    | ok q =>
      obtain ⟨w, registry⟩ := q
      exact .inr ⟨w, registry, hnew, rfl, rfl⟩

/-- The address that the node hands out for a payment request, if it is asked
for one and has one. -/
def handsOutFor (d : Desk) (r : PaymentRequest) : List String :=
  match r.check, d.freshAddress.1 with
  | .ok _, .ok address => [address]
  | _, _ => []

section Traversal

variable (d)

theorem trackSteps_openPayment (p : Payment) (hwaits : p.status = .waiting) :
    d.TrackSteps free [p.receivingAddress] (d.openPayment p).2 := by
  obtain ⟨fault, h⟩ | ⟨w, registry, hnew, hw, h⟩ := d.openPayment_cases p
  · rw [h]
    exact .one (.waste _)
  · rw [h]
    exact .one (.openPayment hnew hwaits hw)

theorem trackSteps_freshAddress : d.TrackSteps free [] d.freshAddress.2 := .aside (.ask _ _)

theorem trackSteps_createPayment (id : String) (r : PaymentRequest) :
    d.TrackSteps free (d.handsOutFor r) (d.createPayment id r).2 := by
  have hfresh : d.TrackSteps free [] d.freshAddress.2 := trackSteps_freshAddress d
  rw [createPayment_eq]
  unfold handsOutFor
  cases r.check with
  | error fault => exact .refl d
  | ok r =>
    generalize d.freshAddress = q at hfresh ⊢
    obtain ⟨answer, d'⟩ := q
    cases answer with
    | error fault => exact hfresh
    | ok address =>
      exact hfresh.trans (trackSteps_openPayment d' (.opened d'.options.baseUrl id address r) rfl)

theorem trackSteps_resumeWatches : d.TrackSteps free [] d.resumeWatches.2 := by
  unfold resumeWatches
  split
  · exact .refl d
  · rename_i ps hps
    refine trackSteps_watchAll d 0 _ fun p hp => ?_
    obtain ⟨hmem, hopen⟩ := List.mem_filter.mp hp
    rw [(Store.unfinishedPayments_eq_ok.mp hps).1] at hmem
    exact ⟨Store.mem_rows_iff.mp (List.mem_filter.mp hmem).1, by simpa using hopen⟩

theorem trackSteps_update (u : Update) (hu : free ∨ u.status.InWindow) :
    d.TrackSteps free [] (d.update u).2 := by
  unfold update
  split
  · exact .refl d
  · exact .one (.apply hu)

/-! ### Wallets and transfers -/

theorem trackSteps_transact {ε α : Type} (run : Store → Except ε (α × Store))
    (h : d.store.Ledgered (d.store.after (run d.store))) :
    d.TrackSteps free [] (d.transact run).2 := by
  rw [transact_eq]
  obtain hsame | ⟨op, hop⟩ := h
  · rw [hsame]
    exact .refl d
  · rw [hop]
    exact .aside (.ledger op)

theorem trackSteps_createWallet (user : Nat) (currency : String) (address : Option String)
    (isDefault : Bool) :
    d.TrackSteps free [] (d.createWallet user currency address isDefault).2 := by
  have hfresh : d.TrackSteps free [] d.freshAddress.2 := trackSteps_freshAddress d
  unfold createWallet
  split
  · exact .refl d
  · split
    · exact .refl d
    · exact trackSteps_transact d _ (Ledger.ledgered_openWallet ..)
    · generalize d.freshAddress = q at hfresh ⊢
      obtain ⟨answer, d'⟩ := q
      cases answer with
      | error fault => exact hfresh
      | ok address => exact hfresh.trans (trackSteps_transact d' _ (Ledger.ledgered_openWallet ..))

theorem trackSteps_hearAttempt (a : Attempt) : d.TrackSteps free [] (d.hearAttempt a).2 := by
  unfold hearAttempt
  split
  · rename_i tx hs
    refine .aside (.proceed _ ?_)
    unfold Attempt.heard
    simp only [hs]
    exact Attempt.isEarly_decide _ _
  · exact .refl d

theorem trackSteps_beginAttempt (transfer : Nat) :
    d.TrackSteps free [] (d.beginAttempt transfer).2 := by
  have hstart : d.TrackSteps free [] (d.proceed (.start transfer)).2 := .aside (.proceed _ rfl)
  unfold beginAttempt
  generalize d.proceed (.start transfer) = q at hstart
  obtain ⟨a, d'⟩ := q
  simp only
  split
  · rename_i tx _
    have hask := hstart.trans (trackSteps_noteCall d' (.lookup tx))
    split
    · exact hask.trans (trackSteps_hearAttempt _ a)
    · exact hask
  · exact hstart

theorem trackSteps_followAttempt (a : Attempt) : d.TrackSteps free [] (d.followAttempt a) := by
  unfold followAttempt
  split
  · exact trackSteps_later d _ _
  · split
    · exact .refl d
    · exact trackSteps_later d _ _
  · exact .refl d

theorem trackSteps_resumeAttempt (a : Attempt) : d.TrackSteps free [] (d.resumeAttempt a) := by
  unfold resumeAttempt
  cases a.isAsking with
  | true => exact (trackSteps_hearAttempt d a).trans (trackSteps_followAttempt _ _)
  | false => exact (trackSteps_beginAttempt d a.transfer).trans (trackSteps_followAttempt _ _)

theorem trackSteps_retry (transfer : Nat) : d.TrackSteps free [] (d.retry transfer) := by
  unfold retry
  split
  · exact .refl d
  · exact (trackSteps_beginAttempt d transfer).trans (trackSteps_followAttempt _ _)

theorem trackSteps_createTransfer (r : TransferRequest) :
    d.TrackSteps free [] (d.createTransfer r).2 := by
  unfold createTransfer Store.requestTransfer
  cases r.check d.store with
  | error fault => exact .refl d
  | ok new => exact (TrackSteps.aside (.addTransfer new)).trans (trackSteps_later _ _ _)

theorem trackSteps_attachTx (transfer sender : Nat) (tx : String) :
    d.TrackSteps free [] (d.attachTx transfer sender tx).2 := by
  unfold attachTx
  split
  · exact .refl d
  · rename_i h
    exact (TrackSteps.aside (.linkTx (linkTx_of_attachTx h))).trans (trackSteps_later _ _ _)

theorem trackSteps_scheduleAll (ts : List Transfer) :
    d.TrackSteps free [] (ts.foldl (fun d t => d.schedule t.id) d) := by
  induction ts generalizing d with
  | nil => exact .refl d
  | cons t ts ih => exact (trackSteps_later d _ _).trans (ih (d.schedule t.id))

theorem trackSteps_resume : d.TrackSteps free [] d.resume.2 := by
  have hwatches : d.TrackSteps free [] d.resumeWatches.2 := trackSteps_resumeWatches d
  unfold resume
  split
  · rename_i h
    rw [h] at hwatches
    exact hwatches
  · rename_i h
    rw [h] at hwatches
    exact hwatches.trans (trackSteps_scheduleAll _ _)

/-! ### Time -/

theorem trackSteps_runJob (job : Job) : d.TrackSteps free [] (d.runJob job) := by
  cases job with
  | merge => exact .one .mergeInbox
  | watch w stage => exact trackSteps_resumeWatch d w stage
  | settle a => exact trackSteps_resumeAttempt d a
  | retry transfer => exact trackSteps_retry d transfer

theorem trackSteps_turn (t : Task) : d.TrackSteps free [] (d.turn t) :=
  (TrackSteps.aside (.wait (max d.now (d.dueAt t)) d.ticket
    (d.tasks.filter (·.ticket != t.ticket)))).trans (trackSteps_runJob _ t.job)

theorem trackSteps_runFor (time turns : Nat) : d.TrackSteps free [] (runFor time turns d) := by
  induction turns generalizing d with
  | zero => exact .refl d
  | succ turns ih =>
    unfold runFor
    split
    · exact .refl d
    · split
      · exact (trackSteps_turn d _).trans (ih _)
      · exact .refl d

theorem trackSteps_advance (time : Nat) : d.TrackSteps free [] (d.advance time) := by
  unfold advance runBefore
  exact (trackSteps_runFor d _ _).trans (.aside (.wait _ _ _))

theorem trackSteps_quiesce : d.TrackSteps free [] d.quiesce := trackSteps_runFor d _ _

theorem trackSteps_await (delay : Nat) : d.TrackSteps free [] (d.await delay) := by
  unfold await
  split
  · exact .refl d
  · exact (trackSteps_runFor d _ _).trans (.aside (.wait _ _ _))

theorem trackSteps_lookup (tx : String) : d.TrackSteps free [] (d.lookup tx).2 :=
  (trackSteps_noteCall d _).trans (trackSteps_await _ _)

theorem trackSteps_paymentStatus (id : String) : d.TrackSteps free [] (d.paymentStatus id).2 := by
  unfold paymentStatus
  split
  · exact .refl d
  · split
    · exact .refl d
    · rename_i tx _
      have hlookup : d.TrackSteps free [] (d.lookup tx).2 := trackSteps_lookup d tx
      split
      · rename_i h
        rw [h] at hlookup
        exact hlookup
      · rename_i h
        rw [h] at hlookup
        exact hlookup

theorem trackSteps_beginAttempts (transfer times : Nat) :
    d.TrackSteps free [] (d.beginAttempts transfer times).2 := by
  induction times generalizing d with
  | zero => exact .refl d
  | succ times ih =>
    exact (trackSteps_beginAttempt d transfer).trans (ih (d.beginAttempt transfer).2)

theorem trackSteps_hearAttempts (attempts : List Attempt) :
    d.TrackSteps free [] (d.hearAttempts attempts).2 := by
  induction attempts generalizing d with
  | nil => exact .refl d
  | cons a rest ih => exact (trackSteps_hearAttempt d a).trans (ih (d.hearAttempt a).2)

theorem trackSteps_settle (transfer times : Nat) :
    d.TrackSteps free [] (d.settle transfer times).2 := by
  have hbegin : d.TrackSteps free [] (d.beginAttempts transfer times).2 :=
    trackSteps_beginAttempts d transfer times
  unfold settle
  simp only
  split
  · exact hbegin.trans ((trackSteps_await _ _).trans (trackSteps_hearAttempts _ _))
  · exact hbegin.trans (trackSteps_hearAttempts _ _)

/-! ### Requests over HTTP -/

theorem trackSteps_deliver (signature : Option String) (body : List UInt8) :
    d.TrackSteps free [] (d.deliver signature body).2 := by
  unfold deliver
  split
  · exact .refl d
  · rename_i u h
    exact trackSteps_update d u (.inr (inWindow_of_requestedUpdate h))

theorem trackSteps_answer (r : Http.Request) (route : Http.Route) :
    d.TrackSteps free [] (Http.answer d r route).2 := by
  cases route with
  | ready => exact .refl d
  | live => exact .refl d
  | paymentStatus segment =>
    show d.TrackSteps free [] (Http.answerStatus d segment).2
    unfold Http.answerStatus
    simp only
    split
    · exact .refl d
    · rename_i id _
      have hstatus : d.TrackSteps free [] (d.paymentStatus id).2 := trackSteps_paymentStatus d id
      split
      · rename_i h
        rw [h] at hstatus
        exact hstatus
      · rename_i h
        rw [h] at hstatus
        exact hstatus
  | webhook =>
    show d.TrackSteps free [] (Http.answerDelivery d r).2
    have hdeliver : d.TrackSteps free [] (d.deliver r.signature r.body).2 :=
      trackSteps_deliver d _ _
    unfold Http.answerDelivery
    split
    · rename_i h
      rw [h] at hdeliver
      exact hdeliver
    · rename_i h
      rw [h] at hdeliver
      exact hdeliver

theorem trackSteps_handle (r : Http.Request) : d.TrackSteps free [] (Http.handle d r).2 := by
  unfold Http.handle
  split
  · exact .refl d
  · split
    · exact .refl d
    · split
      · exact trackSteps_answer d r _
      · split
        · exact trackSteps_answer d r _
        · exact .refl d

end Traversal

/-! ### Every operation -/

namespace Op

/-- The operation starts and ends no watch on the caller's account, keeps the
desk running, and proposes no status but one that reads back. -/
def SparesWatches : Op → Prop
  | .submit u => u.status.InWindow
  | .update u => u.status.InWindow
  | .watch .. => False
  | .cancelAddress _ => False
  | .cancelHandle _ => False
  | .stopWatches => False
  | .restart => False
  | .stop => False
  | _ => True

def handsOut (d : Desk) : Op → List String
  | .createPayment _ r => d.handsOutFor r
  | _ => []

end Op

/-- Every operation is a sequence of steps, but for the one that takes the
journal out. -/
theorem trackSteps_run (op : Op) (hop : free ∨ op.SparesWatches) (hjournal : op ≠ .takeJournal) :
    d.TrackSteps free (op.handsOut d) (op.run d) := by
  cases op with
  | credit wallet amount => exact trackSteps_transact d _ (.op d.store (.credit wallet amount))
  | debit wallet amount => exact trackSteps_transact d _ (.op d.store (.debit wallet amount))
  | setBalance wallet balance =>
    exact trackSteps_transact d _ (.op d.store (.setBalance wallet balance))
  | setDefault user wallet currency =>
    exact trackSteps_transact d _ (Ledger.ledgered_setDefault d.store user wallet currency)
  | createWallet user currency address isDefault =>
    exact trackSteps_createWallet d user currency address isDefault
  | changeWallet wallet change =>
    exact trackSteps_transact d _ (Ledger.ledgered_changeWallet d.store wallet change)
  | closeWallet wallet => exact trackSteps_transact d _ (Ledger.ledgered_closeWallet d.store wallet)
  | createPayment id r => exact trackSteps_createPayment d id r
  | submit u => exact .one (.submit hop)
  | update u => exact trackSteps_update d u hop
  | paymentStatus id => exact trackSteps_paymentStatus d id
  | deliver signature body => exact trackSteps_deliver d signature body
  | serve r => exact trackSteps_handle d r
  | watch address network observer => exact .one (.meddle (hop.resolve_right id) (.watch ..))
  | cancelAddress address => exact .one (.meddle (hop.resolve_right id) (.cancelAddress _))
  | cancelHandle w => exact .one (.meddle (hop.resolve_right id) (.cancelHandle w))
  | stopWatches => exact .one (.meddle (hop.resolve_right id) .stopWatches)
  | lookup tx => exact trackSteps_lookup d tx
  | createTransfer r => exact trackSteps_createTransfer d r
  | attachTx transfer sender tx => exact trackSteps_attachTx d transfer sender tx
  | settle transfer times => exact trackSteps_settle d transfer times
  | resumeWatches => exact trackSteps_resumeWatches d
  | resumeTransfers => exact trackSteps_scheduleAll d _
  | resume => exact trackSteps_resume d
  | restart => exact .one (.meddle (hop.resolve_right id) .restart)
  | stop => exact .one (.meddle (hop.resolve_right id) .stop)
  | script node => exact .aside (.ask node d.journal.calls)
  | takeJournal => exact absurd rfl hjournal
  | advance time => exact trackSteps_advance d time
  | quiesce => exact trackSteps_quiesce d
  | turn task => exact trackSteps_turn d task

end Desk
end Clearing

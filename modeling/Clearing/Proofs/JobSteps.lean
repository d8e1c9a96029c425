import Clearing.Proofs.TrackSteps
import Mathlib.Data.List.Perm.Subperm

/-!
# What a desk does with its jobs

A task that has its turn is taken from the list and its job is in hand until it
is put off again or done. `Desk.JobStep` lists what becomes of the jobs, of
tasks and in hand: a job is taken up, put off, changed into another or put
down, and the store, the registry and the journal change with or without one.
Where a `TrackStep` looks at payments and watches and a `NoticeStep` at what is
published, this looks at who does what is left to do.
-/

namespace Clearing

/-- What there is still to do for an attempt that has come to rest: to hear the
node, or to try again once it was deferred. -/
def Attempt.rest (a : Attempt) : List Job :=
  match a.stage with
  | .asking _ => [.settle a]
  | .done (.ok (.deferred _)) => [.retry a.transfer]
  | _ => []

def Job.begins? : Job → Option Nat
  | .settle a => if a.isAsking then none else some a.transfer
  | .retry transfer => some transfer
  | _ => none

def Job.watch? : Job → Option Watch
  | .watch w _ => some w
  | _ => none

theorem Job.watch?_of_begins {job : Job} {transfer : Nat} (h : job.begins? = some transfer) :
    job.watch? = none := by
  cases job with
  | watch w stage => cases h
  | merge | settle | retry => rfl

theorem Attempt.rest_of_asking {a : Attempt} {tx : String} (h : a.stage = .asking tx) :
    a.rest = [.settle a] := by
  unfold rest
  rw [h]

theorem Attempt.watch?_of_mem_rest {a : Attempt} {job : Job} (h : job ∈ a.rest) :
    job.watch? = none := by
  unfold rest at h
  split at h
  · rw [List.mem_singleton.mp h]
    rfl
  · rw [List.mem_singleton.mp h]
    rfl
  · cases h

/-! ### What the ledger leaves -/

namespace Desk

/-- One step of a desk, with the jobs in hand before and after. -/
inductive JobStep : Desk → List Job → Desk → List Job → Prop
  | wait {d hand} (now : Nat) : JobStep d hand { d with now } hand
  | call {d hand} (node : Node.Script) (calls : List Call) :
      JobStep d hand { d with node, journal := { d.journal with calls } } hand
  | see {d hand} (sightings : List (String × Sighting)) :
      JobStep d hand { d with journal := { d.journal with sightings } } hand
  | takeJournal {d hand} : JobStep d hand d.takeJournal.2 hand
  | take {d hand} {t : Task} (now : Nat) (ht : t ∈ d.tasks) :
      JobStep d hand { d with now, tasks := d.tasks.filter (·.ticket != t.ticket) } (t.job :: hand)
  /-- The jobs in hand are in no particular order. -/
  | sort {d hand hand'} (h : hand.Perm hand') : JobStep d hand d hand'
  | drop {d hand job} (h : job.watch? = none) : JobStep d (job :: hand) d hand
  | later {d hand} (delay : Nat) (job : Job) : JobStep d (job :: hand) (d.later delay job) hand
  | submit {d hand} (u : Update) : JobStep d hand (d.submit u).2 hand
  | clearInbox {d hand} : JobStep d hand { d with inbox := [] } hand
  | apply {d hand} (u : Update) : JobStep d hand (d.apply u).2 hand
  | payments {d hand} (rows : Table String Payment) :
      JobStep d hand { d with store := { d.store with payments := rows } } hand
  | watch {d hand} (address : String) (network : Network) (observer : Observer) :
      JobStep d hand (d.watch address network observer).2 hand
  | goOn {d hand w σ} (τ : Watch.Stage) : JobStep d (.watch w σ :: hand) d (.watch w τ :: hand)
  | endWatch {d hand w σ} (hw : d.isCancelled w = true) :
      JobStep d (.watch w σ :: hand) (d.endWatch w) hand
  | cancelAddress {d hand} (address : String) : JobStep d hand (d.cancelAddress address).2 hand
  | cancelHandle {d hand} (w : Watch) : JobStep d hand (d.cancelHandle w) hand
  | stopWatches {d hand} : JobStep d hand d.stopWatches hand
  | stop {d hand} : JobStep d hand d.stop hand
  | restart {d} : JobStep d [] d.restart []
  | ledger {d hand} (op : Ledger.Op) : JobStep d hand { d with store := op.run d.store } hand
  | addTransfer {d hand} (new : NewTransfer) :
      JobStep d hand { d with store := (d.store.addTransfer new).2 } hand
  | linkTx {d hand id tx t store} (h : d.store.linkTx id tx = .ok (some t, store)) :
      JobStep d hand { d with store } hand
  | schedule {d hand} (transfer : Nat) : JobStep d hand (d.schedule transfer) hand
  /-- A caller attempts a transfer directly. -/
  | attempt {d hand} (transfer : Nat) : JobStep d hand d (.retry transfer :: hand)
  | begin {d hand job transfer} (h : job.begins? = some transfer) :
      JobStep d (job :: hand) (d.proceed (.start transfer)).2
        ((d.proceed (.start transfer)).1.rest ++ hand)
  | answer {d hand a tx} (h : a.stage = .asking tx) (depth : Except NodeFault Int) :
      JobStep d (.settle a :: hand) (d.proceed (a.heard d.options.policy depth)).2
        ((d.proceed (a.heard d.options.policy depth)).1.rest ++ hand)

inductive JobSteps : Desk → List Job → Desk → List Job → Prop
  | refl (d hand) : JobSteps d hand d hand
  | cons {d d' d'' hand hand' hand''} (h : JobStep d hand d' hand')
      (h' : JobSteps d' hand' d'' hand'') : JobSteps d hand d'' hand''

variable {d d' d'' : Desk} {hand hand' hand'' : List Job}

namespace JobSteps

theorem one (h : d.JobStep hand d' hand') : d.JobSteps hand d' hand' := .cons h (.refl _ _)

theorem trans (h : d.JobSteps hand d' hand') (h' : d'.JobSteps hand' d'' hand'') :
    d.JobSteps hand d'' hand'' := by
  induction h with
  | refl => exact h'
  | cons hs _ ih => exact .cons hs (ih h')

theorem sort (h : hand.Perm hand') : d.JobSteps hand d hand' := one (.sort h)

theorem invariant {P : Desk → List Job → Prop}
    (hstep : ∀ {d hand d' hand'}, P d hand → d.JobStep hand d' hand' → P d' hand')
    (h : d.JobSteps hand d' hand') (hd : P d hand) : P d' hand' := by
  induction h with
  | refl => exact hd
  | cons hs _ ih => exact ih (hstep hd hs)

end JobSteps

/-! ### All jobs -/

def jobs (d : Desk) (hand : List Job) : List Job := hand ++ d.tasks.map Task.job

theorem filterMap_jobs {α : Type} {js js' : List Job} (h : js'.Subperm js) (f : Job → Option α) :
    (js'.filterMap f).Subperm (js.filterMap f) := by
  obtain ⟨l, hperm, hsub⟩ := h
  exact ⟨_, hperm.filterMap f, hsub.filterMap f⟩

theorem jobs_take {t : Task} (now : Nat) (ht : t ∈ d.tasks) :
    (jobs { d with now, tasks := d.tasks.filter (·.ticket != t.ticket) } (t.job :: hand)).Subperm
      (d.jobs hand) := by
  have hnot : t ∉ d.tasks.filter (·.ticket != t.ticket) := by simp
  have htasks : (t :: d.tasks.filter (·.ticket != t.ticket)).Subperm d.tasks :=
    List.cons_subperm_of_not_mem_of_mem hnot ht List.filter_sublist.subperm
  obtain ⟨ts, hperm, hsub⟩ := htasks
  have hjobs : (t.job :: (d.tasks.filter (·.ticket != t.ticket)).map Task.job).Subperm
      (d.tasks.map Task.job) := ⟨_, hperm.map Task.job, hsub.map Task.job⟩
  refine List.Perm.subperm_right ?_ |>.mpr ((List.subperm_append_left hand).mpr hjobs)
  exact List.perm_middle.symm

theorem jobs_later (delay : Nat) (job : Job) :
    ((d.later delay job).jobs hand).Perm (d.jobs (job :: hand)) := by
  unfold jobs later
  rw [List.map_append, ← List.append_assoc]
  exact List.perm_append_comm

theorem jobs_submit (u : Update) :
    (d.submit u).2.jobs hand = d.jobs hand ∨
      (d.submit u).2.jobs hand = d.jobs hand ++ [.merge] := by
  unfold submit
  split
  · exact .inl rfl
  · simp only
    split
    · exact .inl rfl
    · refine .inr ?_
      unfold jobs later
      rw [List.map_append, ← List.append_assoc]
      rfl

theorem tasks_apply (d : Desk) (u : Update) : (d.apply u).2.tasks = d.tasks := by
  unfold apply
  cases d.store.merge u with
  | error fault => rfl
  | ok q =>
    obtain ⟨o, store⟩ := q
    cases o with
    | applied p =>
      simp only [announce]
      split <;> rfl
    | unchanged p => rfl
    | stale p => rfl

theorem options_jobStep (hs : d.JobStep hand d' hand') : d'.options = d.options := by
  cases hs with
  | submit u =>
    unfold submit
    split
    · rfl
    · simp only
      split <;> rfl
  | apply u =>
    unfold apply
    cases d.store.merge u with
    | error fault => rfl
    | ok q =>
      obtain ⟨o, store⟩ := q
      cases o with
      | applied p =>
        simp only [announce]
        split <;> rfl
      | unchanged p => rfl
      | stale p => rfl
  | watch address network observer =>
    unfold watch
    split <;> rfl
  | _ => rfl

section Traversal

variable (d)

/-! ### Watches -/

theorem jobSteps_noteCall (call : Call) : d.JobSteps hand (d.noteCall call) hand :=
  .one (.call d.node (d.journal.calls ++ [call]))

theorem jobSteps_report (w : Watch) (seen : Sighting) : d.JobSteps hand (d.report w seen) hand := by
  unfold report
  split
  · exact .one (.submit _)
  · exact .one (.see _)

theorem jobSteps_answerLookup (w : Watch) (tx : String) :
    d.JobSteps hand (d.answerLookup w tx) hand := by
  unfold answerLookup
  split
  · exact jobSteps_report d w _
  · exact .refl d hand

theorem jobSteps_later_watch (w : Watch) (σ τ : Watch.Stage) (delay : Nat) :
    d.JobSteps (.watch w σ :: hand) (d.later delay (.watch w τ)) hand :=
  (JobSteps.one (.goOn τ)).trans (.one (.later delay (.watch w τ)))

theorem jobSteps_pauseWatch (w : Watch) (σ : Watch.Stage) (time : Nat) :
    d.JobSteps (.watch w σ :: hand) (d.pauseWatch w time) hand := by
  unfold pauseWatch
  split
  · rename_i hw
    exact .one (.endWatch hw)
  · exact jobSteps_later_watch d w σ .pausing time

theorem jobSteps_goThrough (w : Watch) (σ : Watch.Stage) (page : List String) :
    d.JobSteps (.watch w σ :: hand) (d.goThrough w page) hand := by
  induction page generalizing d with
  | nil => exact jobSteps_pauseWatch d w σ _
  | cons tx rest ih =>
    unfold goThrough
    split
    · rename_i hglance
      have hw : d.isCancelled w = true := by
        unfold Watch.glance at hglance
        split at hglance
        · assumption
        · split at hglance <;> cases hglance
      exact .one (.endWatch hw)
    · exact ih d
    · refine (jobSteps_noteCall d (.lookup tx)).trans ?_
      simp only
      split
      · exact (jobSteps_answerLookup _ w tx).trans (ih _)
      · exact jobSteps_later_watch _ w σ _ _

theorem jobSteps_node (node : Node.Script) : d.JobSteps hand { d with node } hand :=
  .one (.call node d.journal.calls)

theorem jobSteps_hearSearch (w : Watch) (σ : Watch.Stage) (address : String) :
    d.JobSteps (.watch w σ :: hand) (d.hearSearch w address) hand := by
  unfold hearSearch
  split
  · rename_i node _
    exact (jobSteps_node d node).trans (jobSteps_pauseWatch { d with node } w σ _)
  · rename_i page node _
    exact (jobSteps_node d node).trans (jobSteps_goThrough { d with node } w σ page)

theorem jobSteps_beginPoll (w : Watch) (σ : Watch.Stage) :
    d.JobSteps (.watch w σ :: hand) (d.beginPoll w) hand := by
  unfold beginPoll
  split
  · rename_i hw
    exact .one (.endWatch hw)
  · split
    · exact jobSteps_pauseWatch d w σ _
    · rename_i address _
      refine (jobSteps_noteCall d (.search address.text 0 d.options.timing.pageSize)).trans ?_
      simp only
      split
      · exact jobSteps_hearSearch _ w σ _
      · exact jobSteps_later_watch _ w σ _ _

theorem jobSteps_resumeWatch (w : Watch) (σ : Watch.Stage) :
    d.JobSteps (.watch w σ :: hand) (d.resumeWatch w σ) hand := by
  cases σ with
  | pausing => exact jobSteps_beginPoll d w _
  | searching address => exact jobSteps_hearSearch d w _ address
  | looking tx rest => exact (jobSteps_answerLookup d w tx).trans (jobSteps_goThrough _ w _ rest)

/-! ### Payments -/

theorem jobSteps_watchAll (started : Nat) (ps : List Payment) :
    d.JobSteps hand (d.watchAll started ps).2 hand := by
  induction ps generalizing d started with
  | nil => exact .refl d hand
  | cons p ps ih =>
    have hwatch : d.JobSteps hand (d.watchPayment p).2 hand := .one (.watch _ _ _)
    unfold watchAll
    split
    · rename_i h
      rw [h] at hwatch
      exact hwatch.trans (ih _ _)
    · rename_i h
      rw [h] at hwatch
      exact hwatch.trans (ih _ _)
    · rename_i h
      rw [h] at hwatch
      exact hwatch

theorem jobSteps_resumeWatches : d.JobSteps hand d.resumeWatches.2 hand := by
  unfold resumeWatches
  split
  · exact .refl d hand
  · exact jobSteps_watchAll d 0 _

theorem jobSteps_freshAddress : d.JobSteps hand d.freshAddress.2 hand := .one (.call _ _)

theorem jobSteps_openPayment (p : Payment) : d.JobSteps hand (d.openPayment p).2 hand := by
  obtain ⟨fault, h⟩ | ⟨w, registry, hnew, hw, h⟩ := d.openPayment_cases p
  · rw [h]
    exact .refl d hand
  · have hwatch : ({ d with store := d.store.putPayment p }.watchPayment p).2 =
        { d with store := d.store.putPayment p, registry }.later 0 (.watch w .pausing) := by
      unfold watchPayment watch
      simp only [hw]
    rw [h]
    simp only
    rw [← hwatch]
    exact (JobSteps.one (.payments (d.store.putPayment p).payments)).trans (.one (.watch _ _ _))

theorem jobSteps_createPayment (id : String) (r : PaymentRequest) :
    d.JobSteps hand (d.createPayment id r).2 hand := by
  have hfresh : d.JobSteps hand d.freshAddress.2 hand := jobSteps_freshAddress d
  rw [createPayment_eq]
  cases r.check with
  | error fault => exact .refl d hand
  | ok r =>
    generalize d.freshAddress = q at hfresh ⊢
    obtain ⟨answer, d'⟩ := q
    cases answer with
    | error fault => exact hfresh
    | ok address => exact hfresh.trans (jobSteps_openPayment d' _)

theorem jobSteps_update (u : Update) : d.JobSteps hand (d.update u).2 hand := by
  unfold update
  split
  · exact .refl d hand
  · exact .one (.apply u)

theorem jobSteps_mergeInbox : d.JobSteps hand d.mergeInbox hand := by
  have hall : ∀ (us : List Update) (d : Desk),
      d.JobSteps hand (us.foldl (fun d u => (d.apply u).2) d) hand := by
    intro us
    induction us with
    | nil => exact fun d => .refl d hand
    | cons u us ih => exact fun d => (JobSteps.one (.apply u)).trans (ih (d.apply u).2)
  exact (JobSteps.one .clearInbox).trans (hall d.inbox { d with inbox := [] })

/-! ### Wallets -/

theorem jobSteps_transact {ε α : Type} (run : Store → Except ε (α × Store))
    (h : d.store.Ledgered (d.store.after (run d.store))) :
    d.JobSteps hand (d.transact run).2 hand := by
  rw [transact_eq]
  obtain hsame | ⟨op, hop⟩ := h
  · rw [hsame]
    exact .refl d hand
  · rw [hop]
    exact .one (.ledger op)

theorem jobSteps_createWallet (user : Nat) (currency : String) (address : Option String)
    (isDefault : Bool) :
    d.JobSteps hand (d.createWallet user currency address isDefault).2 hand := by
  have hfresh : d.JobSteps hand d.freshAddress.2 hand := jobSteps_freshAddress d
  unfold createWallet
  split
  · exact .refl d hand
  · split
    · exact .refl d hand
    · exact jobSteps_transact d _ (Ledger.ledgered_openWallet ..)
    · generalize d.freshAddress = q at hfresh ⊢
      obtain ⟨answer, d'⟩ := q
      cases answer with
      | error fault => exact hfresh
      | ok address => exact hfresh.trans (jobSteps_transact d' _ (Ledger.ledgered_openWallet ..))

/-! ### Transfers -/

theorem jobSteps_drop {jobs : List Job} (h : ∀ job ∈ jobs, job.watch? = none) :
    d.JobSteps (jobs ++ hand) d hand := by
  induction jobs with
  | nil => exact .refl d hand
  | cons job jobs ih =>
    exact .cons (.drop (h job List.mem_cons_self)) (ih fun j hj => h j (List.mem_cons_of_mem _ hj))

theorem jobSteps_hearAttempt (a : Attempt) :
    d.JobSteps (a.rest ++ hand) (d.hearAttempt a).2 ((d.hearAttempt a).1.rest ++ hand) := by
  unfold hearAttempt
  split
  · rename_i tx hs
    rw [Attempt.rest_of_asking hs]
    exact .one (.answer hs _)
  · exact .refl d _

theorem jobSteps_beginAttempt {job : Job} {transfer : Nat} (h : job.begins? = some transfer) :
    d.JobSteps (job :: hand) (d.beginAttempt transfer).2
      ((d.beginAttempt transfer).1.rest ++ hand) := by
  have hstart : d.JobSteps (job :: hand) (d.proceed (.start transfer)).2
      ((d.proceed (.start transfer)).1.rest ++ hand) := .one (.begin h)
  unfold beginAttempt
  generalize d.proceed (.start transfer) = q at hstart
  obtain ⟨a, d'⟩ := q
  simp only
  split
  · rename_i tx _
    have hask := hstart.trans (jobSteps_noteCall d' (.lookup tx))
    split
    · exact hask.trans (jobSteps_hearAttempt _ a)
    · exact hask
  · exact hstart

theorem jobSteps_followAttempt (a : Attempt) :
    d.JobSteps (a.rest ++ hand) (d.followAttempt a) hand := by
  unfold followAttempt
  split
  · rename_i hs
    rw [Attempt.rest_of_asking hs]
    exact .one (.later _ _)
  · rename_i hs _
    have hrest : a.rest = [.retry a.transfer] := by
      unfold Attempt.rest
      rw [hs]
    rw [hrest]
    split
    · exact .one (.drop rfl)
    · exact .one (.later _ _)
  · exact jobSteps_drop d fun job hjob => Attempt.watch?_of_mem_rest hjob

theorem jobSteps_resumeAttempt (a : Attempt) :
    d.JobSteps (.settle a :: hand) (d.resumeAttempt a) hand := by
  unfold resumeAttempt
  cases hasks : a.isAsking with
  | true =>
    have hrest : a.rest = [.settle a] := by
      unfold Attempt.isAsking at hasks
      split at hasks
      · rename_i hs
        exact Attempt.rest_of_asking hs
      · cases hasks
    have hhear := @jobSteps_hearAttempt d hand a
    rw [hrest] at hhear
    exact hhear.trans (jobSteps_followAttempt _ _)
  | false =>
    have hbegins : (Job.settle a).begins? = some a.transfer := by simp [Job.begins?, hasks]
    exact (jobSteps_beginAttempt d hbegins).trans (jobSteps_followAttempt _ _)

theorem jobSteps_retry (transfer : Nat) :
    d.JobSteps (.retry transfer :: hand) (d.retry transfer) hand := by
  unfold retry
  split
  · exact .one (.drop rfl)
  · exact (jobSteps_beginAttempt d rfl).trans (jobSteps_followAttempt _ _)

theorem jobSteps_createTransfer (r : TransferRequest) :
    d.JobSteps hand (d.createTransfer r).2 hand := by
  unfold createTransfer Store.requestTransfer
  cases r.check d.store with
  | error fault => exact .refl d hand
  | ok new => exact (JobSteps.one (.addTransfer new)).trans (.one (.schedule _))

theorem jobSteps_attachTx (transfer sender : Nat) (tx : String) :
    d.JobSteps hand (d.attachTx transfer sender tx).2 hand := by
  unfold attachTx
  split
  · exact .refl d hand
  · rename_i h
    exact (JobSteps.one (.linkTx (linkTx_of_attachTx h))).trans (.one (.schedule _))

theorem jobSteps_scheduleAll (ts : List Transfer) :
    d.JobSteps hand (ts.foldl (fun d t => d.schedule t.id) d) hand := by
  induction ts generalizing d with
  | nil => exact .refl d hand
  | cons t ts ih => exact (JobSteps.one (.schedule t.id)).trans (ih (d.schedule t.id))

theorem jobSteps_resume : d.JobSteps hand d.resume.2 hand := by
  have hwatches : d.JobSteps hand d.resumeWatches.2 hand := jobSteps_resumeWatches d
  unfold resume
  split
  · rename_i h
    rw [h] at hwatches
    exact hwatches
  · rename_i h
    rw [h] at hwatches
    exact hwatches.trans (jobSteps_scheduleAll _ _)

/-! ### Time -/

theorem jobSteps_runJob (job : Job) : d.JobSteps (job :: hand) (d.runJob job) hand := by
  cases job with
  | merge => exact (JobSteps.one (.drop rfl)).trans (jobSteps_mergeInbox d)
  | watch w σ => exact jobSteps_resumeWatch d w σ
  | settle a => exact jobSteps_resumeAttempt d a
  | retry transfer => exact jobSteps_retry d transfer

theorem jobSteps_turn {t : Task} (ht : t ∈ d.tasks) : d.JobSteps hand (d.turn t) hand :=
  (JobSteps.one (.take (max d.now (d.dueAt t)) ht)).trans (jobSteps_runJob _ t.job)

theorem nextTask?_mem {t : Task} (h : d.nextTask? = some t) : t ∈ d.tasks := by
  have hfold : ∀ (rest : List Task) (a : Task), rest.foldl d.earlier a ∈ a :: rest := by
    intro rest
    induction rest with
    | nil => exact fun a => List.mem_singleton_self a
    | cons b rest ih =>
      intro a
      have hearlier : d.earlier a b = a ∨ d.earlier a b = b := by
        unfold earlier
        split
        · exact .inr rfl
        · exact .inl rfl
      have hmem := ih (d.earlier a b)
      rw [List.foldl_cons]
      rcases hearlier with he | he <;> rw [he] at hmem ⊢
      · rcases List.mem_cons.mp hmem with h | h
        · rw [h]
          exact List.mem_cons_self
        · exact List.mem_cons_of_mem _ (List.mem_cons_of_mem _ h)
      · exact List.mem_cons_of_mem _ hmem
  unfold nextTask? at h
  split at h
  · cases h
  · rename_i a rest htasks
    rw [htasks, ← Option.some.inj h]
    exact hfold rest a

theorem jobSteps_runFor (time turns : Nat) : d.JobSteps hand (runFor time turns d) hand := by
  induction turns generalizing d with
  | zero => exact .refl d hand
  | succ turns ih =>
    unfold runFor
    split
    · exact .refl d hand
    · rename_i t ht
      split
      · exact (jobSteps_turn d (d.nextTask?_mem ht)).trans (ih _)
      · exact .refl d hand

theorem jobSteps_advance (time : Nat) : d.JobSteps hand (d.advance time) hand := by
  unfold advance runBefore
  exact (jobSteps_runFor d _ _).trans (.one (.wait _))

theorem jobSteps_quiesce : d.JobSteps hand d.quiesce hand := jobSteps_runFor d _ _

theorem jobSteps_await (delay : Nat) : d.JobSteps hand (d.await delay) hand := by
  unfold await
  split
  · exact .refl d hand
  · exact (jobSteps_runFor d _ _).trans (.one (.wait _))

theorem jobSteps_lookup (tx : String) : d.JobSteps hand (d.lookup tx).2 hand :=
  (jobSteps_noteCall d _).trans (jobSteps_await _ _)

theorem jobSteps_paymentStatus (id : String) : d.JobSteps hand (d.paymentStatus id).2 hand := by
  unfold paymentStatus
  split
  · exact .refl d hand
  · split
    · exact .refl d hand
    · rename_i tx _
      have hlookup : d.JobSteps hand (d.lookup tx).2 hand := jobSteps_lookup d tx
      split
      · rename_i h
        rw [h] at hlookup
        exact hlookup
      · rename_i h
        rw [h] at hlookup
        exact hlookup

/-! ### Attempts asked for directly -/

theorem jobSteps_beginAttempts (transfer times : Nat) :
    d.JobSteps hand (d.beginAttempts transfer times).2
      ((d.beginAttempts transfer times).1.flatMap Attempt.rest ++ hand) := by
  induction times generalizing d hand with
  | zero => exact .refl d hand
  | succ times ih =>
    have hbegin : d.JobSteps hand (d.beginAttempt transfer).2
        ((d.beginAttempt transfer).1.rest ++ hand) :=
      (JobSteps.one (.attempt transfer)).trans (jobSteps_beginAttempt d rfl)
    refine hbegin.trans ((ih (d.beginAttempt transfer).2).trans (.sort ?_))
    show List.Perm _ ((_ ++ _) ++ hand)
    rw [List.append_assoc]
    exact List.perm_append_comm_assoc ..

theorem jobSteps_hearAttempts (attempts : List Attempt) :
    d.JobSteps (attempts.flatMap Attempt.rest ++ hand) (d.hearAttempts attempts).2
      ((d.hearAttempts attempts).1.flatMap Attempt.rest ++ hand) := by
  induction attempts generalizing d hand with
  | nil => exact .refl d hand
  | cons a attempts ih =>
    have hhear := @jobSteps_hearAttempt d (attempts.flatMap Attempt.rest ++ hand) a
    have hothers := @ih (d.hearAttempt a).2 ((d.hearAttempt a).1.rest ++ hand)
    -- what is left of the first attempt goes behind the others, and back
    have hbehind := hhear.trans ((JobSteps.sort (List.perm_append_comm_assoc ..)).trans hothers)
    have hback := hbehind.trans (.sort (List.perm_append_comm_assoc ..))
    rw [List.flatMap_cons, List.append_assoc]
    show d.JobSteps _ _ ((_ ++ _) ++ hand)
    rw [List.append_assoc]
    exact hback

theorem jobSteps_settle (transfer times : Nat) :
    d.JobSteps hand (d.settle transfer times).2 hand := by
  have hbegin := @jobSteps_beginAttempts d hand transfer times
  have hdrop : ∀ (d : Desk) (attempts : List Attempt),
      d.JobSteps (attempts.flatMap Attempt.rest ++ hand) d hand := fun d attempts =>
    jobSteps_drop d fun job hjob => by
      obtain ⟨a, -, ha⟩ := List.mem_flatMap.mp hjob
      exact Attempt.watch?_of_mem_rest ha
  unfold settle
  simp only
  split
  · exact hbegin.trans ((jobSteps_await _ _).trans ((jobSteps_hearAttempts _ _).trans (hdrop _ _)))
  · exact hbegin.trans ((jobSteps_hearAttempts _ _).trans (hdrop _ _))

/-! ### Requests over HTTP -/

theorem jobSteps_deliver (signature : Option String) (body : List UInt8) :
    d.JobSteps hand (d.deliver signature body).2 hand := by
  unfold deliver
  split
  · exact .refl d hand
  · exact jobSteps_update d _

theorem jobSteps_answer (r : Http.Request) (route : Http.Route) :
    d.JobSteps hand (Http.answer d r route).2 hand := by
  cases route with
  | ready => exact .refl d hand
  | live => exact .refl d hand
  | paymentStatus segment =>
    show d.JobSteps hand (Http.answerStatus d segment).2 hand
    unfold Http.answerStatus
    simp only
    split
    · exact .refl d hand
    · rename_i id _
      have hstatus : d.JobSteps hand (d.paymentStatus id).2 hand := jobSteps_paymentStatus d id
      split
      · rename_i h
        rw [h] at hstatus
        exact hstatus
      · rename_i h
        rw [h] at hstatus
        exact hstatus
  | webhook =>
    show d.JobSteps hand (Http.answerDelivery d r).2 hand
    have hdeliver : d.JobSteps hand (d.deliver r.signature r.body).2 hand := jobSteps_deliver d _ _
    unfold Http.answerDelivery
    split
    · rename_i h
      rw [h] at hdeliver
      exact hdeliver
    · rename_i h
      rw [h] at hdeliver
      exact hdeliver

theorem jobSteps_handle (r : Http.Request) : d.JobSteps hand (Http.handle d r).2 hand := by
  unfold Http.handle
  split
  · exact .refl d hand
  · split
    · exact .refl d hand
    · split
      · exact jobSteps_answer d r _
      · split
        · exact jobSteps_answer d r _
        · exact .refl d hand

end Traversal

/-! ### Every operation -/

/-- A task that has its turn is one of the desk. -/
def Op.Own (d : Desk) : Op → Prop
  | .turn task => task ∈ d.tasks
  | _ => True

def OwnOps (d : Desk) : List Op → Prop
  | [] => True
  | op :: ops => op.Own d ∧ (op.run d).OwnOps ops

/-- Every operation is a sequence of steps, with nothing in hand at its end. -/
theorem jobSteps_run (op : Op) (hop : op.Own d) : d.JobSteps [] (op.run d) [] := by
  cases op with
  | credit wallet amount => exact jobSteps_transact d _ (.op d.store (.credit wallet amount))
  | debit wallet amount => exact jobSteps_transact d _ (.op d.store (.debit wallet amount))
  | setBalance wallet balance =>
    exact jobSteps_transact d _ (.op d.store (.setBalance wallet balance))
  | setDefault user wallet currency =>
    exact jobSteps_transact d _ (Ledger.ledgered_setDefault d.store user wallet currency)
  | createWallet user currency address isDefault =>
    exact jobSteps_createWallet d user currency address isDefault
  | changeWallet wallet change =>
    exact jobSteps_transact d _ (Ledger.ledgered_changeWallet d.store wallet change)
  | closeWallet wallet => exact jobSteps_transact d _ (Ledger.ledgered_closeWallet d.store wallet)
  | createPayment id r => exact jobSteps_createPayment d id r
  | submit u => exact .one (.submit u)
  | update u => exact jobSteps_update d u
  | paymentStatus id => exact jobSteps_paymentStatus d id
  | deliver signature body => exact jobSteps_deliver d signature body
  | serve r => exact jobSteps_handle d r
  | watch address network observer => exact .one (.watch address network observer)
  | cancelAddress address => exact .one (.cancelAddress address)
  | cancelHandle w => exact .one (.cancelHandle w)
  | stopWatches => exact .one .stopWatches
  | lookup tx => exact jobSteps_lookup d tx
  | createTransfer r => exact jobSteps_createTransfer d r
  | attachTx transfer sender tx => exact jobSteps_attachTx d transfer sender tx
  | settle transfer times => exact jobSteps_settle d transfer times
  | resumeWatches => exact jobSteps_resumeWatches d
  | resumeTransfers => exact jobSteps_scheduleAll d _
  | resume => exact jobSteps_resume d
  | restart => exact .one .restart
  | stop => exact .one .stop
  | script node => exact jobSteps_node d node
  | takeJournal => exact .one .takeJournal
  | advance time => exact jobSteps_advance d time
  | quiesce => exact jobSteps_quiesce d
  | turn task => exact jobSteps_turn d hop

theorem jobSteps_runOps {ops : List Op} (hops : d.OwnOps ops) :
    d.JobSteps [] (d.runOps ops) [] := by
  induction ops generalizing d with
  | nil => exact .refl d []
  | cons op ops ih => exact (jobSteps_run op hops.1).trans (ih hops.2)

end Desk
end Clearing

import Clearing.Proofs.Registrations
import Clearing.Proofs.JobSteps

/-!
# A desk from moment to moment

Between two moments of a desk one task has its turn, or time passes, or a caller
is answered at once, or a call that waits for the node goes one piece further,
with the turns that other tasks have in between. Unlike the steps that look at
one part of a desk, moments tell time and turns, so a watch or a task can be
followed through a run, and what comes from outside may come at any of them.
Every run goes through moments: that is `Desk.passes_runOps`.
-/

namespace Clearing

deriving instance DecidableEq for Attempt.Stage, Attempt, Job, Task

def Job.on? : Job → Option Nat
  | .settle a => some a.transfer
  | .retry transfer => some transfer
  | _ => none

def tasksOn (t : Nat) (tasks : List Task) : List Task :=
  tasks.filter fun task => task.job.on? = some t

section TasksOn

variable {t : Nat} {task : Task} {tasks : List Task}

theorem mem_tasksOn : task ∈ tasksOn t tasks ↔ task ∈ tasks ∧ task.job.on? = some t := by
  simp [tasksOn]

theorem tasksOn_append (t : Nat) (tasks tasks' : List Task) :
    tasksOn t (tasks ++ tasks') = tasksOn t tasks ++ tasksOn t tasks' := List.filter_append ..

theorem tasksOn_one (h : task.job.on? = some t) : tasksOn t [task] = [task] := by simp [tasksOn, h]

theorem tasksOn_of_none (h : ∀ task ∈ tasks, task.job.on? ≠ some t) : tasksOn t tasks = [] := by
  simpa [tasksOn] using h

end TasksOn

theorem Job.watch?_of_on {job : Job} {transfer : Nat} (h : job.on? = some transfer) :
    job.watch? = none := by
  cases job with
  | watch w σ => cases h
  | merge | settle | retry => rfl

theorem Attempt.transfer_proceed (policy : Policy) (s : Store) (a : Attempt) :
    (a.proceed policy s).1.transfer = a.transfer :=
  (Attempt.steps_invariant policy a.transfer (P := fun _ _ => True) (fun _ _ => trivial)
    a.stage.remaining a s rfl trivial).2

theorem Attempt.transfer_heard (a : Attempt) (policy : Policy) (depth : Except NodeFault Int) :
    (a.heard policy depth).transfer = a.transfer := by
  unfold heard
  split <;> rfl

namespace Desk

/-! ### What is done at once -/

/-- No time passes between two desks, the tasks stay, and no watch comes back
that was cancelled. A task that is added merges, begins a watch that is new, or
has a job such as `own` says. -/
structure AtOnce (own : Job → Prop) (d d' : Desk) : Prop where
  now : d'.now = d.now
  options : d'.options = d.options
  nextId : d.registry.nextId ≤ d'.registry.nextId
  cancelled : ∀ {id}, d.registry.isCancelled id = true → d'.registry.isCancelled id = true
  tasks : ∃ added, d'.tasks = d.tasks ++ added ∧ ∀ t ∈ added,
    t.job = .merge ∨ own t.job ∨ ∃ w σ, t.job = .watch w σ ∧ d.registry.nextId ≤ w.id

variable {own own' : Job → Prop} {d d' d'' : Desk}

namespace AtOnce

theorem still (hnow : d'.now = d.now) (hoptions : d'.options = d.options)
    (hregistry : d'.registry = d.registry) (htasks : d'.tasks = d.tasks) : AtOnce own d d' where
  now := hnow
  options := hoptions
  nextId := Nat.le_of_eq (by rw [hregistry])
  cancelled h := by rwa [hregistry]
  tasks := ⟨[], by rw [htasks, List.append_nil], fun t ht => by cases ht⟩

theorem refl (d : Desk) : AtOnce own d d := still rfl rfl rfl rfl

theorem trans (h : AtOnce own d d') (h' : AtOnce own d' d'') : AtOnce own d d'' where
  now := h'.now.trans h.now
  options := h'.options.trans h.options
  nextId := Nat.le_trans h.nextId h'.nextId
  cancelled hid := h'.cancelled (h.cancelled hid)
  tasks := by
    obtain ⟨added, htasks, hadded⟩ := h.tasks
    obtain ⟨added', htasks', hadded'⟩ := h'.tasks
    refine ⟨added ++ added', by rw [htasks', htasks, List.append_assoc], fun t ht => ?_⟩
    rcases List.mem_append.mp ht with ht | ht
    · exact hadded t ht
    · obtain hmerge | hown | ⟨w, σ, hjob, hnew⟩ := hadded' t ht
      · exact .inl hmerge
      · exact .inr (.inl hown)
      · exact .inr (.inr ⟨w, σ, hjob, Nat.le_trans h.nextId hnew⟩)

theorem mono (h : AtOnce own d d') (hown : ∀ job, own job → own' job) : AtOnce own' d d' where
  now := h.now
  options := h.options
  nextId := h.nextId
  cancelled := h.cancelled
  tasks := by
    obtain ⟨added, htasks, hadded⟩ := h.tasks
    exact ⟨added, htasks, fun t ht => (hadded t ht).imp_right (.imp_left (hown t.job))⟩

theorem tasksOn_eq {transfer : Nat} (h : AtOnce own d d')
    (hown : ∀ job, own job → job.on? ≠ some transfer) :
    tasksOn transfer d'.tasks = tasksOn transfer d.tasks := by
  obtain ⟨added, htasks, hadded⟩ := h.tasks
  have hnone : ∀ t ∈ added, t.job.on? ≠ some transfer := by
    intro t ht
    obtain hmerge | hmine | ⟨w, σ, hjob, -⟩ := hadded t ht
    · rw [hmerge]
      exact nofun
    · exact hown _ hmine
    · rw [hjob]
      exact nofun
  rw [htasks, tasksOn_append, tasksOn_of_none hnone, List.append_nil]

theorem registry {registry : Registry} (hnext : d.registry.nextId ≤ registry.nextId)
    (hcancelled : ∀ {id}, d.registry.isCancelled id = true → registry.isCancelled id = true) :
    AtOnce own d { d with registry } where
  now := rfl
  options := rfl
  nextId := hnext
  cancelled := hcancelled
  tasks := ⟨[], (List.append_nil _).symm, fun t ht => by cases ht⟩

theorem later (d : Desk) (delay : Nat) {job : Job} (h : own job) :
    AtOnce own d (d.later delay job) where
  now := rfl
  options := rfl
  nextId := Nat.le_refl _
  cancelled := id
  tasks := ⟨_, rfl, fun t ht => by
    rw [List.mem_singleton.mp ht]
    exact .inr (.inl h)⟩

end AtOnce

section Traversal

variable (d)

/-! ### Watches -/

theorem atOnce_submit (u : Update) : AtOnce own d (d.submit u).2 := by
  unfold submit
  split
  · exact .refl d
  · simp only
    split
    · exact .still rfl rfl rfl rfl
    · exact ⟨rfl, rfl, Nat.le_refl _, id, _, rfl, fun t ht =>
        .inl (congrArg Task.job (List.mem_singleton.mp ht))⟩

theorem atOnce_report (w : Watch) (seen : Sighting) : AtOnce own d (d.report w seen) := by
  unfold report
  split
  · exact atOnce_submit d _
  · exact .still rfl rfl rfl rfl

theorem atOnce_answerLookup (w : Watch) (tx : String) : AtOnce own d (d.answerLookup w tx) := by
  unfold answerLookup
  split
  · exact atOnce_report d w _
  · exact .refl d

theorem isCancelled_release (r : Registry) (w : Watch) (id : Nat) :
    (r.release w).isCancelled id = r.isCancelled id := by
  unfold Registry.release
  split <;> rfl

theorem atOnce_endWatch (w : Watch) : AtOnce own d (d.endWatch w) :=
  .registry (Nat.le_of_eq (Registry.nextId_release ..).symm)
    fun h => (isCancelled_release ..).trans h

def TakesOn (w : Watch) (job : Job) : Prop := job.watch? = some w

theorem atOnce_pauseWatch (w : Watch) (time : Nat) :
    AtOnce (TakesOn w) d (d.pauseWatch w time) := by
  unfold pauseWatch
  split
  · exact atOnce_endWatch d w
  · exact .later d time rfl

theorem atOnce_goThrough (w : Watch) (page : List String) :
    AtOnce (TakesOn w) d (d.goThrough w page) := by
  induction page generalizing d with
  | nil => exact atOnce_pauseWatch d w _
  | cons tx rest ih =>
    unfold goThrough
    split
    · exact atOnce_endWatch d w
    · exact ih d
    · have hcall : AtOnce (TakesOn w) d (d.noteCall (.lookup tx)) := .still rfl rfl rfl rfl
      simp only
      split
      · exact hcall.trans ((atOnce_answerLookup _ w tx).trans (ih _))
      · exact hcall.trans (.later _ _ rfl)

theorem atOnce_hearSearch (w : Watch) (address : String) :
    AtOnce (TakesOn w) d (d.hearSearch w address) := by
  have hnode : ∀ node, AtOnce (TakesOn w) d { d with node } := fun _ => .still rfl rfl rfl rfl
  unfold hearSearch
  split
  · exact (hnode _).trans (atOnce_pauseWatch _ w _)
  · exact (hnode _).trans (atOnce_goThrough _ w _)

theorem atOnce_beginPoll (w : Watch) : AtOnce (TakesOn w) d (d.beginPoll w) := by
  unfold beginPoll
  split
  · exact atOnce_endWatch d w
  · split
    · exact atOnce_pauseWatch d w _
    · rename_i address _
      have hcall : AtOnce (TakesOn w) d
          (d.noteCall (.search address.text 0 d.options.timing.pageSize)) := .still rfl rfl rfl rfl
      simp only
      split
      · exact hcall.trans (atOnce_hearSearch _ w _)
      · exact hcall.trans (.later _ _ rfl)

theorem atOnce_resumeWatch (w : Watch) (σ : Watch.Stage) :
    AtOnce (TakesOn w) d (d.resumeWatch w σ) := by
  cases σ with
  | pausing => exact atOnce_beginPoll d w
  | searching address => exact atOnce_hearSearch d w address
  | looking tx rest => exact (atOnce_answerLookup d w tx).trans (atOnce_goThrough _ w rest)

theorem atOnce_watch (address : String) (network : Network) (observer : Observer) :
    AtOnce own d (d.watch address network observer).2 := by
  unfold watch
  split
  · exact .refl d
  · rename_i w registry hw
    obtain ⟨-, -, rfl, rfl⟩ := Registry.register_eq_ok.mp hw
    exact ⟨rfl, rfl, Nat.le_succ _, id, _, rfl, fun t ht => .inr (.inr
      ⟨_, .pausing, congrArg Task.job (List.mem_singleton.mp ht), Nat.le_refl _⟩)⟩

theorem atOnce_cancelAddress (address : String) : AtOnce own d (d.cancelAddress address).2 :=
  .registry (Nat.le_of_eq (Registry.nextId_cancel ..).symm) fun {id} h => by
    show (d.registry.cancel address).2.isCancelled id = true
    rw [Registry.isCancelled_cancel, h, Bool.true_or]

theorem atOnce_cancelHandle (w : Watch) : AtOnce own d (d.cancelHandle w) :=
  .registry (Nat.le_refl _) fun {id} h => by
    show (d.registry.stopped || (w.id :: d.registry.cancelled).contains id) = true
    unfold Registry.isCancelled at h
    rw [List.contains_cons]
    rcases Bool.or_eq_true_iff.mp h with h | h
    · rw [h, Bool.true_or]
    · rw [h, Bool.or_true, Bool.or_true]

theorem atOnce_stopWatches : AtOnce own d d.stopWatches :=
  .registry (Nat.le_refl _) fun _ => rfl

theorem atOnce_stop : AtOnce own d d.stop :=
  (AtOnce.still rfl rfl rfl rfl : AtOnce own d { d with stopped := true, inbox := [] }).trans
    (.registry (Nat.le_refl _) fun _ => rfl)

/-! ### Updates and payments -/

theorem now_apply (u : Update) : (d.apply u).2.now = d.now := by
  unfold apply
  cases d.store.merge u with
  | error fault => rfl
  | ok q =>
    obtain ⟨o, store⟩ := q
    cases o with
    | applied p =>
      simp only [announce]
      split <;> rfl
    | unchanged p => rfl
    | stale p => rfl

theorem atOnce_apply (u : Update) : AtOnce own d (d.apply u).2 := by
  have hregistry : d.registry.nextId ≤ (d.apply u).2.registry.nextId ∧ ∀ {id},
      d.registry.isCancelled id = true → (d.apply u).2.registry.isCancelled id = true := by
    rw [registry_apply]
    split
    · split
      · refine ⟨Nat.le_of_eq (Registry.nextId_cancel ..).symm, fun h => ?_⟩
        rw [Registry.isCancelled_cancel, h, Bool.true_or]
      · exact ⟨Nat.le_refl _, id⟩
    · exact ⟨Nat.le_refl _, id⟩
  have hjobs : d.JobStep [] (d.apply u).2 [] := .apply u
  exact ⟨now_apply d u, options_jobStep hjobs, hregistry.1, hregistry.2,
    [], by rw [tasks_apply, List.append_nil], fun t ht => by cases ht⟩

theorem atOnce_update (u : Update) : AtOnce own d (d.update u).2 := by
  unfold update
  split
  · exact .refl d
  · exact atOnce_apply d u

theorem atOnce_mergeInbox : AtOnce own d d.mergeInbox := by
  have hall : ∀ (us : List Update) (d : Desk), AtOnce own d (d.mergeAll us) := by
    intro us
    induction us with
    | nil => exact fun d => .refl d
    | cons u us ih => exact fun d => (atOnce_apply d u).trans (ih _)
  rw [mergeInbox_eq]
  exact (AtOnce.still rfl rfl rfl rfl : AtOnce own d { d with inbox := [] }).trans (hall _ _)

theorem atOnce_deliver (signature : Option String) (body : List UInt8) :
    AtOnce own d (d.deliver signature body).2 := by
  unfold deliver
  split
  · exact .refl d
  · exact atOnce_update d _

theorem atOnce_freshAddress : AtOnce own d d.freshAddress.2 := .still rfl rfl rfl rfl

theorem atOnce_openPayment (p : Payment) : AtOnce own d (d.openPayment p).2 := by
  obtain ⟨fault, h⟩ | ⟨w, registry, hnew, hw, h⟩ := d.openPayment_cases p
  · rw [h]
    exact .refl d
  · have hwatch : ({ d with store := d.store.putPayment p }.watchPayment p).2 =
        { d with store := d.store.putPayment p, registry }.later 0 (.watch w .pausing) := by
      unfold watchPayment watch
      simp only [hw]
    have hstore : AtOnce own d { d with store := d.store.putPayment p } := .still rfl rfl rfl rfl
    rw [h]
    simp only
    rw [← hwatch]
    exact hstore.trans (atOnce_watch _ _ _ _)

theorem atOnce_createPayment (id : String) (r : PaymentRequest) :
    AtOnce own d (d.createPayment id r).2 := by
  have hfresh : AtOnce own d d.freshAddress.2 := atOnce_freshAddress d
  rw [createPayment_eq]
  cases r.check with
  | error fault => exact .refl d
  | ok r =>
    generalize d.freshAddress = q at hfresh ⊢
    obtain ⟨answer, d'⟩ := q
    cases answer with
    | error fault => exact hfresh
    | ok address => exact hfresh.trans (atOnce_openPayment d' _)

theorem atOnce_watchAll (started : Nat) (ps : List Payment) :
    AtOnce own d (d.watchAll started ps).2 := by
  induction ps generalizing d started with
  | nil => exact .refl d
  | cons p ps ih =>
    have hwatch : AtOnce own d (d.watchPayment p).2 := atOnce_watch d _ _ _
    unfold watchAll
    split
    · rename_i h
      rw [h] at hwatch
      exact hwatch.trans (ih _ _)
    · rename_i h
      rw [h] at hwatch
      exact hwatch.trans (ih _ _)
    · rename_i h
      rw [h] at hwatch
      exact hwatch

theorem atOnce_resumeWatches : AtOnce own d d.resumeWatches.2 := by
  unfold resumeWatches
  split
  · exact .refl d
  · exact atOnce_watchAll d 0 _

/-! ### Wallets -/

theorem atOnce_transact {ε α : Type} (run : Store → Except ε (α × Store)) :
    AtOnce own d (d.transact run).2 := by
  unfold transact
  split <;> exact .still rfl rfl rfl rfl

theorem atOnce_createWallet (user : Nat) (currency : String) (address : Option String)
    (isDefault : Bool) : AtOnce own d (d.createWallet user currency address isDefault).2 := by
  have hfresh : AtOnce own d d.freshAddress.2 := atOnce_freshAddress d
  unfold createWallet
  split
  · exact .refl d
  · split
    · exact .refl d
    · exact atOnce_transact d _
    · generalize d.freshAddress = q at hfresh ⊢
      obtain ⟨answer, d'⟩ := q
      cases answer with
      | error fault => exact hfresh
      | ok address => exact hfresh.trans (atOnce_transact d' _)

/-! ### Transfers -/

def WorksOn (transfer : Nat) (job : Job) : Prop := job.on? = some transfer

def NoWatch (job : Job) : Prop := job.watch? = none

theorem AtOnce.noWatch {transfer : Nat} (h : AtOnce (WorksOn transfer) d d') :
    AtOnce NoWatch d d' := h.mono fun _ => Job.watch?_of_on

theorem transfer_hearAttempt (a : Attempt) : (d.hearAttempt a).1.transfer = a.transfer := by
  unfold hearAttempt
  split
  · exact (Attempt.transfer_proceed ..).trans (a.transfer_heard ..)
  · rfl

theorem transfer_beginAttempt (transfer : Nat) :
    (d.beginAttempt transfer).1.transfer = transfer := by
  have hstart : (d.proceed (.start transfer)).1.transfer = transfer :=
    Attempt.transfer_proceed d.options.policy d.store (.start transfer)
  unfold beginAttempt
  generalize d.proceed (.start transfer) = q at hstart
  obtain ⟨a, d'⟩ := q
  simp only
  split
  · split
    · exact (transfer_hearAttempt _ a).trans hstart
    · exact hstart
  · exact hstart

theorem atOnce_proceed (a : Attempt) : AtOnce own d (d.proceed a).2 := .still rfl rfl rfl rfl

theorem atOnce_hearAttempt (a : Attempt) : AtOnce own d (d.hearAttempt a).2 := by
  unfold hearAttempt
  split
  · exact atOnce_proceed d _
  · exact .refl d

theorem atOnce_beginAttempt (transfer : Nat) : AtOnce own d (d.beginAttempt transfer).2 := by
  have hstart : AtOnce own d (d.proceed (.start transfer)).2 := atOnce_proceed d _
  unfold beginAttempt
  generalize d.proceed (.start transfer) = q at hstart
  obtain ⟨a, d'⟩ := q
  simp only
  split
  · rename_i tx _
    have hcall : AtOnce own d' (d'.noteCall (.lookup tx)) := .still rfl rfl rfl rfl
    split
    · exact hstart.trans (hcall.trans (atOnce_hearAttempt _ a))
    · exact hstart.trans hcall
  · exact hstart

theorem atOnce_followAttempt (a : Attempt) :
    AtOnce (WorksOn a.transfer) d (d.followAttempt a) := by
  unfold followAttempt
  split
  · exact .later d _ rfl
  · split
    · exact .refl d
    · exact .later d _ rfl
  · exact .refl d

theorem atOnce_resumeAttempt (a : Attempt) :
    AtOnce (WorksOn a.transfer) d (d.resumeAttempt a) := by
  unfold resumeAttempt
  cases a.isAsking with
  | true =>
    have hfollow := atOnce_followAttempt (d.hearAttempt a).2 (d.hearAttempt a).1
    rw [transfer_hearAttempt] at hfollow
    exact (atOnce_hearAttempt d a).trans hfollow
  | false =>
    have hfollow := atOnce_followAttempt (d.beginAttempt a.transfer).2
      (d.beginAttempt a.transfer).1
    rw [transfer_beginAttempt] at hfollow
    exact (atOnce_beginAttempt d a.transfer).trans hfollow

theorem atOnce_retry (transfer : Nat) : AtOnce (WorksOn transfer) d (d.retry transfer) := by
  unfold retry
  split
  · exact .refl d
  · have hfollow := atOnce_followAttempt (d.beginAttempt transfer).2 (d.beginAttempt transfer).1
    rw [transfer_beginAttempt] at hfollow
    exact (atOnce_beginAttempt d transfer).trans hfollow

theorem atOnce_schedule (transfer : Nat) : AtOnce (WorksOn transfer) d (d.schedule transfer) :=
  .later d 0 rfl

theorem atOnce_createTransfer (r : TransferRequest) :
    AtOnce NoWatch d (d.createTransfer r).2 := by
  unfold createTransfer
  split
  · exact .refl d
  · rename_i store _
    have hstore : AtOnce NoWatch d { d with store } := .still rfl rfl rfl rfl
    exact hstore.trans (atOnce_schedule _ _).noWatch

theorem atOnce_attachTx (transfer sender : Nat) (tx : String) :
    AtOnce (WorksOn transfer) d (d.attachTx transfer sender tx).2 := by
  unfold attachTx
  split
  · exact .refl d
  · rename_i store _
    have hstore : AtOnce (WorksOn transfer) d { d with store } := .still rfl rfl rfl rfl
    exact hstore.trans (atOnce_schedule _ _)

theorem atOnce_scheduleAll (ts : List Transfer) :
    AtOnce NoWatch d (ts.foldl (fun d t => d.schedule t.id) d) := by
  induction ts generalizing d with
  | nil => exact .refl d
  | cons t ts ih => exact (atOnce_schedule d t.id).noWatch.trans (ih _)

theorem atOnce_resume : AtOnce NoWatch d d.resume.2 := by
  have hwatches : AtOnce NoWatch d d.resumeWatches.2 := atOnce_resumeWatches d
  unfold resume
  split
  · rename_i h
    rw [h] at hwatches
    exact hwatches
  · rename_i h
    rw [h] at hwatches
    exact hwatches.trans (atOnce_scheduleAll _ _)

/-! ### Turns -/

/-- The job of a task that has its turn adds tasks for its own watch only, if it
takes one on, and none for a watch otherwise. -/
theorem atOnce_runJob (job : Job) :
    AtOnce (fun j => j.watch? = job.watch?) d (d.runJob job) := by
  cases job with
  | merge => exact atOnce_mergeInbox d
  | watch w σ => exact atOnce_resumeWatch d w σ
  | settle a => exact (atOnce_resumeAttempt d a).noWatch
  | retry transfer => exact (atOnce_retry d transfer).noWatch

/-- The desk when the turn of a task has come. -/
def wake (d : Desk) (t : Task) : Desk :=
  { d with now := max d.now (d.dueAt t), tasks := d.tasks.filter (·.ticket != t.ticket) }

theorem turn_eq (t : Task) : d.turn t = (d.wake t).runJob t.job := rfl

theorem now_turn (t : Task) : (d.turn t).now = max d.now (d.dueAt t) :=
  (atOnce_runJob (d.wake t) t.job).now

theorem now_runFor_le {time now : Nat} (turns : Nat) (htime : time ≤ now + 1) (h : d.now ≤ now) :
    (runFor time turns d).now ≤ now := by
  induction turns generalizing d with
  | zero => exact h
  | succ turns ih =>
    unfold runFor
    split
    · exact h
    · split
      · rename_i t _ hdue
        refine ih (d.turn t) ?_
        rw [now_turn]
        omega
      · exact h

end Traversal

/-! ### Moments -/

/-- The call is answered without waiting for the node, and lets no time pass. -/
def Op.isPrompt : Op → Bool
  | .paymentStatus _ => false
  | .serve _ => false
  | .lookup _ => false
  | .settle .. => false
  | .advance _ => false
  | .quiesce => false
  | .turn _ => false
  | _ => true

/-- The call is prompt, keeps the desk open and gives no transfer a task. -/
def Op.isBeside : Op → Bool
  | .createTransfer _ => false
  | .attachTx .. => false
  | .resumeTransfers => false
  | .resume => false
  | .restart => false
  | op => op.isPrompt

end Desk

open Desk (Op)

/-- What happens between two moments. -/
inductive Moment
  | turn (t : Task)
  | wait (now : Nat)
  | ask (tx : String)
  | begin (transfer : Nat)
  | hear (a : Attempt)
  | answer (op : Op)

namespace Moment

def run (d : Desk) : Moment → Desk
  | .turn t => d.turn t
  | .wait now => { d with now }
  | .ask tx => d.noteCall (.lookup tx)
  | .begin transfer => (d.beginAttempt transfer).2
  | .hear a => (d.hearAttempt a).2
  | .answer op => op.run d

/-- It can happen at the desk: the task is one of its own, time does not go
back, the attempt waits for the node, and the call is prompt. -/
def Own (d : Desk) : Moment → Prop
  | .turn t => t ∈ d.tasks
  | .wait now => d.now ≤ now
  | .ask _ => True
  | .begin _ => True
  | .hear a => a.isAsking = true
  | .answer op => op.isPrompt = true

instance (d : Desk) : (m : Moment) → Decidable (m.Own d)
  | .turn t => inferInstanceAs (Decidable (t ∈ d.tasks))
  | .wait now => inferInstanceAs (Decidable (d.now ≤ now))
  | .ask _ => inferInstanceAs (Decidable True)
  | .begin _ => inferInstanceAs (Decidable True)
  | .hear a => inferInstanceAs (Decidable (a.isAsking = true))
  | .answer op => inferInstanceAs (Decidable (op.isPrompt = true))

end Moment

namespace Desk

variable {own : Job → Prop} {d d' d'' : Desk} {ms ms' : List Moment}

def runMoments (d : Desk) (ms : List Moment) : Desk := ms.foldl Moment.run d

def OwnMoments (d : Desk) : List Moment → Prop
  | [] => True
  | m :: ms => m.Own d ∧ (m.run d).OwnMoments ms

instance decidableOwnMoments (d : Desk) : (ms : List Moment) → Decidable (d.OwnMoments ms)
  | [] => inferInstanceAs (Decidable True)
  | m :: ms =>
    have := decidableOwnMoments (m.run d) ms
    inferInstanceAs (Decidable (_ ∧ _))

theorem runMoments_append (d : Desk) (ms ms' : List Moment) :
    d.runMoments (ms ++ ms') = (d.runMoments ms).runMoments ms' := List.foldl_append

theorem OwnMoments.append (h : d.OwnMoments ms) (h' : (d.runMoments ms).OwnMoments ms') :
    d.OwnMoments (ms ++ ms') := by
  induction ms generalizing d with
  | nil => exact h'
  | cons m ms ih => exact ⟨h.1, ih h.2 h'⟩

theorem OwnMoments.rest (h : d.OwnMoments (ms ++ ms')) : (d.runMoments ms).OwnMoments ms' := by
  induction ms generalizing d with
  | nil => exact h
  | cons m ms ih => exact ih h.2

theorem OwnMoments.invariant {P : Desk → Prop}
    (hstep : ∀ {d m}, m ∈ ms → Moment.Own d m → P d → P (m.run d)) (hms : d.OwnMoments ms)
    (h : P d) : P (d.runMoments ms) := by
  induction ms generalizing d with
  | nil => exact h
  | cons m ms ih =>
    exact ih (fun hm => hstep (List.mem_cons_of_mem _ hm)) hms.2
      (hstep List.mem_cons_self hms.1 h)

theorem atOnce_beside {op : Op} (hop : op.isBeside = true) : AtOnce own d (op.run d) := by
  cases op with
  | credit | debit | setBalance | setDefault | changeWallet | closeWallet =>
    exact atOnce_transact d _
  | createWallet user currency address isDefault => exact atOnce_createWallet d _ _ _ _
  | createPayment id r => exact atOnce_createPayment d id r
  | submit u => exact atOnce_submit d u
  | update u => exact atOnce_update d u
  | deliver signature body => exact atOnce_deliver d _ _
  | watch address network observer => exact atOnce_watch d _ _ _
  | cancelAddress address => exact atOnce_cancelAddress d address
  | cancelHandle w => exact atOnce_cancelHandle d w
  | stopWatches => exact atOnce_stopWatches d
  | resumeWatches => exact atOnce_resumeWatches d
  | stop => exact atOnce_stop d
  | script node => exact .still rfl rfl rfl rfl
  | takeJournal => exact .still rfl rfl rfl rfl
  | createTransfer | attachTx | resumeTransfers | resume | restart => cases hop
  | paymentStatus | serve | lookup | settle | advance | quiesce | turn => cases hop

theorem atOnce_answer {op : Op} (hop : op.isPrompt = true) (hopen : op ≠ .restart) :
    AtOnce NoWatch d (op.run d) := by
  by_cases hbeside : op.isBeside = true
  · exact atOnce_beside hbeside
  · cases op with
    | createTransfer r => exact atOnce_createTransfer d r
    | attachTx transfer sender tx => exact (atOnce_attachTx d _ _ _).noWatch
    | resumeTransfers => exact atOnce_scheduleAll d _
    | resume => exact atOnce_resume d
    | restart => exact absurd rfl hopen
    | _ => exact absurd hop hbeside

theorem now_le_run {m : Moment} (hm : m.Own d) : d.now ≤ (m.run d).now := by
  cases m with
  | turn t =>
    show d.now ≤ (d.turn t).now
    rw [now_turn]
    exact Nat.le_max_left _ _
  | wait now => exact hm
  | ask tx => exact Nat.le_refl _
  | begin transfer =>
    have honce : AtOnce NoWatch d (d.beginAttempt transfer).2 := atOnce_beginAttempt d transfer
    exact Nat.le_of_eq honce.now.symm
  | hear a =>
    have honce : AtOnce NoWatch d (d.hearAttempt a).2 := atOnce_hearAttempt d a
    exact Nat.le_of_eq honce.now.symm
  | answer op =>
    by_cases hopen : op = .restart
    · rw [hopen]
      exact Nat.le_refl _
    · exact Nat.le_of_eq (atOnce_answer hm hopen).now.symm

theorem now_le_runMoments (hms : d.OwnMoments ms) : d.now ≤ (d.runMoments ms).now := by
  induction ms generalizing d with
  | nil => exact Nat.le_refl _
  | cons m ms ih => exact Nat.le_trans (now_le_run hms.1) (ih hms.2)

/-! ### Calls that wait, moment by moment -/

def Passes (d d' : Desk) : Prop := ∃ ms, d.OwnMoments ms ∧ d.runMoments ms = d'

namespace Passes

theorem refl (d : Desk) : d.Passes d := ⟨[], trivial, rfl⟩

theorem one {m : Moment} (hm : m.Own d) : d.Passes (m.run d) := ⟨[m], ⟨hm, trivial⟩, rfl⟩

theorem trans (h : d.Passes d') (h' : d'.Passes d'') : d.Passes d'' := by
  obtain ⟨ms, hms, rfl⟩ := h
  obtain ⟨ms', hms', rfl⟩ := h'
  exact ⟨ms ++ ms', hms.append hms', runMoments_append d ms ms'⟩

end Passes

section Traversal

variable (d)

theorem passes_runFor (time turns : Nat) : d.Passes (runFor time turns d) := by
  induction turns generalizing d with
  | zero => exact .refl d
  | succ turns ih =>
    unfold runFor
    split
    · exact .refl d
    · rename_i t ht
      split
      · exact (Passes.one (m := .turn t) (d.nextTask?_mem ht)).trans (ih _)
      · exact .refl d

theorem passes_until (turns : Nat) {time now : Nat} (htime : time ≤ now + 1) (h : d.now ≤ now) :
    d.Passes { runFor time turns d with now } :=
  (passes_runFor d time turns).trans (.one (m := .wait now) (now_runFor_le d turns htime h))

theorem passes_advance (time : Nat) : d.Passes (d.advance time) :=
  passes_until d _ (Nat.le_refl _) (Nat.le_add_right _ _)

theorem passes_await (delay : Nat) : d.Passes (d.await delay) := by
  unfold await
  split
  · exact .refl d
  · exact passes_until d _ (Nat.le_succ _) (Nat.le_add_right _ _)

theorem passes_lookup (tx : String) : d.Passes (d.lookup tx).2 :=
  (Passes.one (m := .ask tx) trivial).trans (passes_await _ _)

theorem passes_paymentStatus (id : String) : d.Passes (d.paymentStatus id).2 := by
  unfold paymentStatus
  split
  · exact .refl d
  · split
    · exact .refl d
    · rename_i tx _
      have hlookup : d.Passes (d.lookup tx).2 := passes_lookup d tx
      split
      · rename_i h
        rw [h] at hlookup
        exact hlookup
      · rename_i h
        rw [h] at hlookup
        exact hlookup

theorem passes_beginAttempts (transfer times : Nat) :
    d.Passes (d.beginAttempts transfer times).2 := by
  induction times generalizing d with
  | zero => exact .refl d
  | succ times ih =>
    exact (Passes.one (m := .begin transfer) trivial).trans (ih (d.beginAttempt transfer).2)

theorem hearAttempt_of_idle {a : Attempt} (h : a.isAsking = false) : d.hearAttempt a = (a, d) := by
  unfold Attempt.isAsking at h
  unfold hearAttempt
  split
  · rename_i hs
    rw [hs] at h
    cases h
  · rfl

theorem passes_hearAttempts (attempts : List Attempt) :
    d.Passes (d.hearAttempts attempts).2 := by
  induction attempts generalizing d with
  | nil => exact .refl d
  | cons a rest ih =>
    have hhear : d.Passes (d.hearAttempt a).2 := by
      by_cases hasks : a.isAsking = true
      · exact .one (m := .hear a) hasks
      · rw [hearAttempt_of_idle d (Bool.not_eq_true _ ▸ hasks)]
        exact .refl d
    exact hhear.trans (ih (d.hearAttempt a).2)

theorem passes_settle (transfer times : Nat) : d.Passes (d.settle transfer times).2 := by
  have hbegin : d.Passes (d.beginAttempts transfer times).2 := passes_beginAttempts d _ _
  unfold settle
  simp only
  split
  · exact hbegin.trans ((passes_await _ _).trans (passes_hearAttempts _ _))
  · exact hbegin.trans (passes_hearAttempts _ _)

theorem passes_answer (r : Http.Request) (route : Http.Route) :
    d.Passes (Http.answer d r route).2 := by
  cases route with
  | ready => exact .refl d
  | live => exact .refl d
  | paymentStatus segment =>
    show d.Passes (Http.answerStatus d segment).2
    unfold Http.answerStatus
    simp only
    split
    · exact .refl d
    · rename_i id _
      have hstatus : d.Passes (d.paymentStatus id).2 := passes_paymentStatus d id
      split
      · rename_i h
        rw [h] at hstatus
        exact hstatus
      · rename_i h
        rw [h] at hstatus
        exact hstatus
  | webhook =>
    show d.Passes (Http.answerDelivery d r).2
    have hdeliver : d.Passes (d.deliver r.signature r.body).2 :=
      .one (m := .answer (.deliver r.signature r.body)) rfl
    unfold Http.answerDelivery
    split
    · rename_i h
      rw [h] at hdeliver
      exact hdeliver
    · rename_i h
      rw [h] at hdeliver
      exact hdeliver

theorem passes_handle (r : Http.Request) : d.Passes (Http.handle d r).2 := by
  unfold Http.handle
  split
  · exact .refl d
  · split
    · exact .refl d
    · split
      · exact passes_answer d r _
      · split
        · exact passes_answer d r _
        · exact .refl d

/-- Whatever is asked of a desk, it passes from moment to moment. -/
theorem passes_run (op : Op) (hop : op.Own d) : d.Passes (op.run d) := by
  by_cases hprompt : op.isPrompt = true
  · exact .one (m := .answer op) hprompt
  · cases op with
    | paymentStatus id => exact passes_paymentStatus d id
    | serve r => exact passes_handle d r
    | lookup tx => exact passes_lookup d tx
    | settle transfer times => exact passes_settle d transfer times
    | advance time => exact passes_advance d time
    | quiesce => exact passes_runFor d _ _
    | turn task => exact .one (m := .turn task) hop
    | _ => exact absurd rfl hprompt

theorem passes_runOps {ops : List Op} (hops : d.OwnOps ops) : d.Passes (d.runOps ops) := by
  induction ops generalizing d with
  | nil => exact .refl d
  | cons op ops ih => exact (passes_run d op hops.1).trans (ih (op.run d) hops.2)

end Traversal
end Desk
end Clearing

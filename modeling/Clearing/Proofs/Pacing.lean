import Clearing.Proofs.Moments
import Clearing.Proofs.Rounds
import Mathlib.Algebra.GroupWithZero.Nat
import Mathlib.Algebra.Order.BigOperators.Group.List
import Mathlib.Algebra.Order.Group.Nat

/-!
# How soon a transfer can be given up

A node that answers at once, and never with a final depth, lets one task make a
check when it begins and one more after each interval. But every link and every
resumption begins another task on the same transfer, as does a caller who
attempts it directly, and all of them count their checks in one place. What is
kept from moment to moment is that the checks made so far, with those that the
waiting tasks can make until some time, are no more than those that all the
tasks begun can have made until then.
-/

namespace Clearing

open Attempt

deriving instance DecidableEq for Node.Script

/-! ### An attempt that finds the transaction not final -/

def checksOf (row : Option Transfer) : Nat := row.elim 0 (·.checks)

/-- A transfer that has failed was checked as often as allowed. -/
def GivenUp (m : Nat) (row : Option Transfer) : Prop :=
  ∀ r, row = some r → r.status = .failed → m ≤ r.checks

/-- How far an attempt has come that counts one check at most and never claims,
on a transfer that was stored as `old` when it began. -/
def Attempt.Stage.Short (m : Nat) (old row : Option Transfer) : Stage → Prop
  | .opening => row = old
  | .asking tx => row = old ∧ ∃ r, row = some r ∧ r.linkedTx = some tx
  | .counting limit => limit = m ∧ row = old
  | .closing => checksOf row ≤ checksOf old + 1 ∧ ∀ r, row = some r → m ≤ r.checks
  | .reporting => checksOf row ≤ checksOf old + 1
  | .done _ => checksOf row ≤ checksOf old + 1
  | _ => False

section Turns

variable {m interval id t : Nat} {s s' : Store} {σ τ : Stage} {d : Option Deed}
  {old row : Option Transfer}

theorem Attempt.Stage.Short.checks_le (h : σ.Short m old row) :
    checksOf row ≤ checksOf old + 1 := by
  cases σ with
  | opening => rw [show row = old from h]; exact Nat.le_succ _
  | asking tx => rw [h.1]; exact Nat.le_succ _
  | counting limit => rw [h.2]; exact Nat.le_succ _
  | closing => exact h.1
  | reporting => exact h
  | done result => exact h
  | claiming | debiting | crediting | refunding | finishing => exact h.elim

theorem Attempt.Turn.short (hs : s.Sound) (hgiven : GivenUp m (s.transfers.get? id))
    (hσ : σ.Short m old (s.transfers.get? id)) (h : Turn (.retry interval m) s id σ d τ s') :
    GivenUp m (s'.transfers.get? id) ∧ τ.Short m old (s'.transfers.get? id) := by
  cases h with
  | waits => exact ⟨hgiven, hσ⟩
  | ended => exact ⟨hgiven, hσ⟩
  | missing hr _ => exact ⟨hgiven, hσ.checks_le⟩
  | late hr _ _ => exact ⟨hgiven, hσ.checks_le⟩
  | opened hr _ hl => exact ⟨hgiven, hσ, _, hr, hl⟩
  | unlinked => exact ⟨hgiven, rfl, hσ⟩
  | @counted r limit τ hr hp hτ =>
    obtain ⟨rfl, hold⟩ := hσ
    have hrow : (s.putTransfer { r with checks := r.checks + 1 }).transfers.get? id =
        some { r with checks := r.checks + 1 } := hs.get?_rewrite hr rfl
    have hone : checksOf (some { r with checks := r.checks + 1 }) ≤ checksOf old + 1 := by
      rw [← hold, hr]
      exact Nat.le_refl _
    rw [hrow]
    refine ⟨fun q hq hfailed => ?_, ?_⟩
    · cases hq
      exact Nat.le_succ_of_le (hgiven r hr hfailed)
    · rw [hτ]
      split
      · rename_i hlast
        refine ⟨hone, fun q hq => ?_⟩
        cases hq
        exact hlast
      · exact hone
  | @closed r hr hp =>
    have hrow :
        (s.putTransfer { r with isProcessed := true, status := .failed }).transfers.get? id =
          some { r with isProcessed := true, status := .failed } := hs.get?_rewrite hr rfl
    obtain ⟨hone, hlast⟩ := hσ
    rw [hr] at hone
    rw [hrow]
    refine ⟨fun q hq _ => ?_, hone⟩
    cases hq
    exact hlast r hr
  | reported hr => exact ⟨hgiven, hσ⟩
  | claimed | debited | debitRefused | credited | creditRefused | refunded | refundRefused
  | finished => exact hσ.elim

theorem Attempt.short_proceed (hs : s.Sound) (a : Attempt)
    (hgiven : GivenUp m (s.transfers.get? a.transfer))
    (ha : a.stage.Short m old (s.transfers.get? a.transfer)) :
    let q := a.proceed (.retry interval m) s
    q.2.1.Sound ∧ GivenUp m (q.2.1.transfers.get? a.transfer) ∧
      q.1.stage.Short m old (q.2.1.transfers.get? a.transfer) :=
  (steps_invariant (.retry interval m) a.transfer
    (P := fun s' σ => s'.Sound ∧ GivenUp m (s'.transfers.get? a.transfer) ∧
      σ.Short m old (s'.transfers.get? a.transfer))
    (fun h hturn => ⟨hturn.sound h.1, hturn.short h.1 h.2.1 h.2.2⟩)
    a.stage.remaining a s rfl ⟨hs, hgiven, ha⟩).1

/-- The node has answered, or was not asked. -/
def Attempt.Stage.isHeard : Stage → Bool
  | .opening => false
  | .asking _ => false
  | _ => true

theorem Attempt.Turn.isHeard {policy : Policy} (h : Turn policy s id σ d τ s')
    (hσ : σ.isHeard = true) : τ.isHeard = true := by
  cases h with
  | waits | opened | unlinked => cases hσ
  | counted hr hp hτ =>
    rw [hτ]
    split <;> rfl
  | _ => rfl

theorem Attempt.isAsking_proceed_of_heard (policy : Policy) (s : Store) (a : Attempt)
    (ha : a.stage.isHeard = true) : (a.proceed policy s).1.isAsking = false := by
  have hheard := (steps_invariant policy a.transfer (P := fun _ σ => σ.isHeard = true)
    (fun h hturn => hturn.isHeard h) a.stage.remaining a s rfl ha).1
  unfold isAsking proceed
  split
  · rename_i hasks
    rw [hasks] at hheard
    cases hheard
  · rfl

theorem Attempt.row_proceed (policy : Policy) (hs : s.Sound) (a : Attempt)
    (hne : t ≠ a.transfer) :
    (a.proceed policy s).2.1.transfers.get? t = s.transfers.get? t :=
  (steps_invariant policy a.transfer
    (P := fun s' _ => s'.Sound ∧ s'.transfers.get? t = s.transfers.get? t)
    (fun h hturn => ⟨hturn.sound h.1, (hturn.row_ne h.1 hne).trans h.2⟩)
    a.stage.remaining a s rfl ⟨hs, rfl⟩).1.2

end Turns

/-! ### Counting by the clock -/

/-- How many checks a task can have made by `now` that made its first one at
`since`, with one more after each interval. -/
def checksBy (interval now since : Nat) : Nat :=
  if since ≤ now then (now - since) / interval + 1 else 0

def totalBy (interval now : Nat) (times : List Nat) : Nat :=
  (times.map (checksBy interval now)).sum

section Clock

variable {interval now since : Nat}

theorem checksBy_next (hinterval : 0 < interval) (h : since ≤ now) :
    checksBy interval now since = checksBy interval now (since + interval) + 1 := by
  unfold checksBy
  rw [if_pos h]
  by_cases hnext : since + interval ≤ now
  · rw [if_pos hnext, Nat.div_eq_sub_div hinterval (by omega), Nat.sub_add_eq]
  · rw [if_neg hnext, Nat.div_eq_of_lt (by omega)]

theorem checksBy_anti {later : Nat} (h : since ≤ later) :
    checksBy interval now later ≤ checksBy interval now since := by
  unfold checksBy
  by_cases hlater : later ≤ now
  · rw [if_pos hlater, if_pos (Nat.le_trans h hlater)]
    exact Nat.succ_le_succ (Nat.div_le_div_right (by omega))
  · rw [if_neg hlater]
    exact Nat.zero_le _

@[simp] theorem totalBy_nil : totalBy interval now [] = 0 := rfl

@[simp] theorem totalBy_cons (time : Nat) (times : List Nat) :
    totalBy interval now (time :: times) =
      checksBy interval now time + totalBy interval now times := List.sum_cons

@[simp] theorem totalBy_append (times times' : List Nat) :
    totalBy interval now (times ++ times') =
      totalBy interval now times + totalBy interval now times' := by
  unfold totalBy
  rw [List.map_append, List.sum_append]

theorem totalBy_le_of_subperm {times times' : List Nat} (h : times.Subperm times') :
    totalBy interval now times ≤ totalBy interval now times' := by
  obtain ⟨l, hperm, hsub⟩ := h
  have hsum : totalBy interval now times = totalBy interval now l :=
    ((hperm.map _).sum_eq).symm
  rw [hsum]
  exact (hsub.map (checksBy interval now)).sum_le_sum fun _ _ => Nat.zero_le _

end Clock

/-! ### What begins a task -/

/-- How many tasks on a transfer are begun in a moment, those that callers do
themselves among them. -/
def Moment.startsOn (t : Nat) (d : Desk) : Moment → Nat
  | .begin transfer => if transfer = t then 1 else 0
  | .answer (.createTransfer r) =>
    match (d.createTransfer r).1 with
    | .ok row => if row.id = t then 1 else 0
    | .error _ => 0
  | .answer (.attachTx transfer sender tx) =>
    match (d.attachTx transfer sender tx).1 with
    | .ok _ => if transfer = t then 1 else 0
    | .error _ => 0
  | .answer .resumeTransfers => d.store.unprocessedTransfers.countP (·.id == t)
  | .answer .resume =>
    match d.resume.1 with
    | .ok _ => d.store.unprocessedTransfers.countP (·.id == t)
    | .error _ => 0
  | _ => 0

theorem Moment.startsOn_createTransfer (t : Nat) (d : Desk) (r : TransferRequest) :
    startsOn t d (.answer (.createTransfer r)) =
      match (d.createTransfer r).1 with
      | .ok row => if row.id = t then 1 else 0
      | .error _ => 0 := rfl

theorem Moment.startsOn_attachTx (t : Nat) (d : Desk) (transfer sender : Nat) (tx : String) :
    startsOn t d (.answer (.attachTx transfer sender tx)) =
      match (d.attachTx transfer sender tx).1 with
      | .ok _ => if transfer = t then 1 else 0
      | .error _ => 0 := rfl

theorem Moment.startsOn_resume (t : Nat) (d : Desk) :
    startsOn t d (.answer .resume) =
      match d.resume.1 with
      | .ok _ => d.store.unprocessedTransfers.countP (·.id == t)
      | .error _ => 0 := rfl

namespace Desk

variable {own : Job → Prop} {d d' : Desk} {interval m t : Nat}

/-! ### Attempts at the desk -/

/-- The node answers look-ups at once, and says of the transaction that is linked
to the transfer that it is not final or not known. -/
structure Shallow (t : Nat) (d : Desk) : Prop where
  prompt : d.node.lookupDelay = 0
  notFinal : ∀ r, d.store.transfers.get? t = some r → ∀ tx, r.linkedTx = some tx →
    (∃ depth, d.node.depth tx = .ok depth ∧ depth < finalDepth) ∨
      ∃ unknown, d.node.depth tx = .error (.unknownTx unknown)

theorem decide_of_shallow {answer : Except NodeFault Int}
    (h : (∃ depth, answer = .ok depth ∧ depth < finalDepth) ∨
      ∃ unknown, answer = .error (.unknownTx unknown)) :
    (Policy.retry interval m).decide answer = .counting m := by
  obtain ⟨depth, rfl, hdepth⟩ | ⟨unknown, rfl⟩ := h
  · show (if finalDepth ≤ depth then Stage.claiming else .counting m) = .counting m
    rw [if_neg (Int.not_le.mpr hdepth)]
  · rfl

theorem short_proceed (hpolicy : d.options.policy = .retry interval m) (hs : d.store.Sound)
    (a : Attempt) {old : Option Transfer}
    (hgiven : GivenUp m (d.store.transfers.get? a.transfer))
    (ha : a.stage.Short m old (d.store.transfers.get? a.transfer)) :
    (d.proceed a).2.store.Sound ∧ GivenUp m ((d.proceed a).2.store.transfers.get? a.transfer) ∧
      (d.proceed a).1.stage.Short m old ((d.proceed a).2.store.transfers.get? a.transfer) := by
  have hshort := @Attempt.short_proceed m interval d.store old hs a hgiven ha
  rw [← hpolicy] at hshort
  exact hshort

theorem short_beginAttempt (hpolicy : d.options.policy = .retry interval m)
    (hs : d.store.Sound) (hgiven : GivenUp m (d.store.transfers.get? t)) (hshallow : d.Shallow t) :
    (d.beginAttempt t).1.isAsking = false ∧ (d.beginAttempt t).2.store.Sound ∧
      GivenUp m ((d.beginAttempt t).2.store.transfers.get? t) ∧
      checksOf ((d.beginAttempt t).2.store.transfers.get? t) ≤
        checksOf (d.store.transfers.get? t) + 1 := by
  have hstart : (Attempt.start t).stage.Short m (d.store.transfers.get? t)
      (d.store.transfers.get? t) := rfl
  obtain ⟨hs', hgiven', hshort⟩ := short_proceed hpolicy hs (.start t) hgiven hstart
  have hnode : (d.proceed (.start t)).2.node = d.node := rfl
  have hoptions : (d.proceed (.start t)).2.options = d.options := rfl
  have htransfer : (d.proceed (.start t)).1.transfer = t :=
    Attempt.transfer_proceed d.options.policy d.store (.start t)
  unfold beginAttempt
  generalize d.proceed (.start t) = q at hs' hgiven' hshort hnode hoptions htransfer
  obtain ⟨a, d'⟩ := q
  simp only at hs' hgiven' hshort hnode hoptions htransfer ⊢
  subst htransfer
  split
  · -- the node answers in the same turn, and the check is counted
    rename_i tx hasks
    rw [if_pos (show (d'.noteCall (.lookup tx)).node.lookupDelay = 0 from
      (congrArg _ hnode).trans hshallow.prompt)]
    rw [hasks] at hshort
    obtain ⟨hold, r, hr, hlinked⟩ := hshort
    have hanswer := hshallow.notFinal r (hold ▸ hr) tx hlinked
    have hheard : a.heard d'.options.policy (d'.node.depth tx) =
        { a with stage := .counting m } := by
      unfold Attempt.heard
      rw [hasks, hoptions, hpolicy, hnode]
      simp only [decide_of_shallow hanswer]
    have hhear : (d'.noteCall (.lookup tx)).hearAttempt a =
        (d'.noteCall (.lookup tx)).proceed { a with stage := .counting m } := by
      unfold hearAttempt
      rw [hasks]
      show (d'.noteCall (.lookup tx)).proceed
        (a.heard d'.options.policy (d'.node.depth tx)) = _
      rw [hheard]
    rw [hhear]
    obtain ⟨hs'', hgiven'', hcounted⟩ := short_proceed (d := d'.noteCall (.lookup tx))
      (hoptions ▸ hpolicy) hs' { a with stage := .counting m } hgiven' ⟨rfl, hold⟩
    exact ⟨Attempt.isAsking_proceed_of_heard _ _ { a with stage := .counting m } rfl, hs'',
      hgiven'', hcounted.checks_le⟩
  · rename_i hidle
    refine ⟨?_, hs', hgiven', hshort.checks_le⟩
    unfold Attempt.isAsking
    split
    · rename_i tx hasks
      exact absurd hasks (hidle tx)
    · rfl

theorem row_hearAttempt (hs : d.store.Sound) {a : Attempt} (hne : t ≠ a.transfer) :
    (d.hearAttempt a).2.store.transfers.get? t = d.store.transfers.get? t := by
  unfold hearAttempt
  split
  · exact Attempt.row_proceed _ hs _ (by rwa [Attempt.transfer_heard])
  · rfl

theorem row_beginAttempt (hs : d.store.Sound) {transfer : Nat} (hne : t ≠ transfer) :
    (d.beginAttempt transfer).2.store.transfers.get? t = d.store.transfers.get? t := by
  have hstart : (d.proceed (.start transfer)).2.store.transfers.get? t =
      d.store.transfers.get? t := Attempt.row_proceed _ hs (.start transfer) hne
  have hs' : (d.proceed (.start transfer)).2.store.Sound :=
    ((leads_proceed d (.start transfer) rfl).funds hs).1
  have htransfer : (d.proceed (.start transfer)).1.transfer = transfer :=
    Attempt.transfer_proceed d.options.policy d.store (.start transfer)
  unfold beginAttempt
  generalize d.proceed (.start transfer) = q at hstart hs' htransfer
  obtain ⟨a, d'⟩ := q
  simp only at hstart hs' htransfer ⊢
  split
  · split
    · exact (row_hearAttempt (d := d'.noteCall _) hs' (by rwa [htransfer])).trans hstart
    · exact hstart
  · exact hstart

theorem row_resumeAttempt (hs : d.store.Sound) {a : Attempt} (hne : t ≠ a.transfer) :
    (d.resumeAttempt a).store.transfers.get? t = d.store.transfers.get? t := by
  unfold resumeAttempt
  simp only [store_followAttempt]
  split
  · exact row_hearAttempt hs hne
  · exact row_beginAttempt hs hne

theorem row_retry (hs : d.store.Sound) {transfer : Nat} (hne : t ≠ transfer) :
    (d.retry transfer).store.transfers.get? t = d.store.transfers.get? t := by
  unfold retry
  split
  · rfl
  · simp only [store_followAttempt]
    exact row_beginAttempt hs hne

/-! ### What leaves the transfers alone -/

theorem transfers_merge (s : Store) (u : Update) :
    (s.after (s.merge u)).transfers = s.transfers := by
  unfold Store.merge Store.after
  cases s.payment u.paymentId with
  | error fault => rfl
  | ok p =>
    simp only
    split <;> rfl

theorem transfers_mergeAll (d : Desk) (us : List Update) :
    (d.mergeAll us).store.transfers = d.store.transfers := by
  induction us generalizing d with
  | nil => rfl
  | cons u us ih =>
    show ((d.apply u).2.mergeAll us).store.transfers = _
    rw [ih, store_apply, transfers_merge]

theorem transfers_ledgered {s s' : Store} (h : s.Ledgered s') : s'.transfers = s.transfers := by
  obtain rfl | ⟨op, rfl⟩ := h
  · rfl
  · exact congrArg (fun p => p.2.1) (op.besides_run s)

def SameTransfers (d d' : Desk) : Prop := d'.store.transfers = d.store.transfers

namespace SameTransfers

theorem of_store (h : d'.store = d.store) : d.SameTransfers d' := congrArg Store.transfers h

variable (d)

theorem transact {ε α : Type} (run : Store → Except ε (α × Store))
    (h : d.store.Ledgered (d.store.after (run d.store))) :
    d.SameTransfers (d.transact run).2 := by
  unfold SameTransfers
  rw [store_transact]
  exact transfers_ledgered h

theorem update (u : Update) : d.SameTransfers (d.update u).2 := by
  unfold SameTransfers Desk.update
  split
  · rfl
  · rw [store_apply, transfers_merge]

theorem deliver (signature : Option String) (body : List UInt8) :
    d.SameTransfers (d.deliver signature body).2 := by
  unfold Desk.deliver
  split
  · exact of_store rfl
  · exact update d _

theorem createWallet (user : Nat) (currency : String) (address : Option String)
    (isDefault : Bool) : d.SameTransfers (d.createWallet user currency address isDefault).2 := by
  have hfresh : d.SameTransfers d.freshAddress.2 := of_store (store_freshAddress d)
  unfold Desk.createWallet
  split
  · exact of_store rfl
  · split
    · exact of_store rfl
    · exact transact d _ (Ledger.ledgered_openWallet ..)
    · generalize d.freshAddress = q at hfresh ⊢
      obtain ⟨answer, d'⟩ := q
      cases answer with
      | error fault => exact hfresh
      | ok address => exact (transact d' _ (Ledger.ledgered_openWallet ..)).trans hfresh

theorem createPayment (id : String) (r : PaymentRequest) :
    d.SameTransfers (d.createPayment id r).2 := by
  have hfresh : d.SameTransfers d.freshAddress.2 := of_store (store_freshAddress d)
  rw [createPayment_eq]
  cases r.check with
  | error fault => exact of_store rfl
  | ok r =>
    generalize d.freshAddress = q at hfresh ⊢
    obtain ⟨answer, d'⟩ := q
    cases answer with
    | error fault => exact hfresh
    | ok address =>
      obtain ⟨fault, h⟩ | ⟨w, registry, hnew, hw, h⟩ :=
        d'.openPayment_cases (.opened d'.options.baseUrl id address r)
      · simp only [h]
        exact hfresh
      · simp only [h]
        exact hfresh

theorem beside {op : Op} (hop : op.isBeside = true) : d.SameTransfers (op.run d) := by
  cases op with
  | credit wallet amount => exact transact d _ (.op d.store (.credit wallet amount))
  | debit wallet amount => exact transact d _ (.op d.store (.debit wallet amount))
  | setBalance wallet balance => exact transact d _ (.op d.store (.setBalance wallet balance))
  | setDefault user wallet currency =>
    exact transact d _ (Ledger.ledgered_setDefault d.store user wallet currency)
  | changeWallet wallet change =>
    exact transact d _ (Ledger.ledgered_changeWallet d.store wallet change)
  | closeWallet wallet => exact transact d _ (Ledger.ledgered_closeWallet d.store wallet)
  | createWallet user currency address isDefault => exact createWallet d _ _ _ _
  | createPayment id r => exact createPayment d id r
  | submit u => exact of_store (store_submit d u)
  | update u => exact update d u
  | deliver signature body => exact deliver d signature body
  | watch address network observer => exact of_store (store_watch d address network observer)
  | resumeWatches => exact of_store (store_resumeWatches d)
  | cancelAddress | cancelHandle | stopWatches | stop | script | takeJournal => exact of_store rfl
  | createTransfer | attachTx | resumeTransfers | resume | restart => cases hop
  | paymentStatus | serve | lookup | settle | advance | quiesce | turn => cases hop

end SameTransfers

/-! ### The tasks on a transfer -/

def dueTimes (t : Nat) (tasks : List Task) : List Nat := (tasksOn t tasks).map Task.due

theorem dueTimes_append (t : Nat) (tasks tasks' : List Task) :
    dueTimes t (tasks ++ tasks') = dueTimes t tasks ++ dueTimes t tasks' := by
  unfold dueTimes
  rw [tasksOn_append, List.map_append]

theorem dueTimes_one {task : Task} (h : task.job.on? = some t) :
    dueTimes t [task] = [task.due] := by
  unfold dueTimes
  rw [tasksOn_one h, List.map_singleton]

theorem dueTimes_take {task : Task} (htask : task ∈ d.tasks) (hon : task.job.on? = some t) :
    (task.due :: dueTimes t (d.tasks.filter (·.ticket != task.ticket))).Subperm
      (dueTimes t d.tasks) := by
  have hnot : task ∉ d.tasks.filter (·.ticket != task.ticket) := by simp
  obtain ⟨l, hperm, hsub⟩ :=
    List.cons_subperm_of_not_mem_of_mem hnot htask List.filter_sublist.subperm
  have htimes : (dueTimes t l).Perm (dueTimes t ([task] ++ d.tasks.filter _)) :=
    (hperm.filter _).map Task.due
  rw [dueTimes_append, dueTimes_one hon] at htimes
  exact ⟨_, htimes, (hsub.filter _).map Task.due⟩

theorem AtOnce.dueTimes_eq (hd : AtOnce own d d') (hown : ∀ job, own job → job.on? ≠ some t) :
    dueTimes t d'.tasks = dueTimes t d.tasks :=
  congrArg (List.map Task.due) (hd.tasksOn_eq hown)

theorem createTransfer_cases (d : Desk) (r : TransferRequest) :
    (∃ fault, d.createTransfer r = (.error fault, d)) ∨
    ∃ new, d.createTransfer r = (.ok (d.store.addTransfer new).1,
      { d with store := (d.store.addTransfer new).2 }.schedule (d.store.lastTransfer + 1)) := by
  unfold createTransfer Store.requestTransfer
  cases r.check d.store with
  | error fault => exact .inl ⟨fault, rfl⟩
  | ok new => exact .inr ⟨new, rfl⟩

/-- The checks made of a transfer and those that its tasks can make, the ones with
the due times `owed` in hand, are no more than the tasks begun at the times
`begun` can have made. No task on it waits for the node. -/
structure Paced (interval m t : Nat) (begun owed : List Nat) (d : Desk) : Prop where
  sound : d.store.Sound
  policy : d.options.policy = .retry interval m
  idle : ∀ task ∈ d.tasks, ∀ a, task.job = .settle a → a.transfer = t → a.isAsking = false
  given : GivenUp m (d.store.transfers.get? t)
  paced : ∀ now, d.now ≤ now →
    checksOf (d.store.transfers.get? t) + totalBy interval now owed +
      totalBy interval now (dueTimes t d.tasks) ≤ totalBy interval now begun

namespace Paced

variable {begun owed : List Nat}

theorem start (options : Options) (hpolicy : options.policy = .retry interval m) (t : Nat) :
    (Desk.start options).Paced interval m t [] [] where
  sound := Store.sound_empty
  policy := hpolicy
  idle task htask := by cases htask
  given r hr := by cases hr
  paced now _ := Nat.le_refl _

theorem idle_atOnce (h : d.Paced interval m t begun owed) (hd : AtOnce own d d')
    (hown : ∀ job, own job → job.on? ≠ some t) {task : Task} (htask : task ∈ d'.tasks)
    {a : Attempt} (hjob : task.job = .settle a) (ha : a.transfer = t) : a.isAsking = false := by
  have hon : task.job.on? = some t := by
    rw [hjob, ← ha]
    rfl
  have hmem : task ∈ tasksOn t d'.tasks := mem_tasksOn.mpr ⟨htask, hon⟩
  rw [hd.tasksOn_eq hown] at hmem
  exact h.idle task (mem_tasksOn.mp hmem).1 a hjob ha

theorem aside (h : d.Paced interval m t begun owed) (hd : AtOnce own d d')
    (hown : ∀ job, own job → job.on? ≠ some t) (hs : d'.store.Sound)
    (hrow : d'.store.transfers.get? t = d.store.transfers.get? t) :
    d'.Paced interval m t begun owed where
  sound := hs
  policy := hd.options ▸ h.policy
  idle task htask a hjob ha := h.idle_atOnce hd hown htask hjob ha
  given := hrow ▸ h.given
  paced now hnow := by
    rw [hrow, hd.dueTimes_eq hown]
    exact h.paced now (hd.now ▸ hnow)

theorem later (h : d.Paced interval m t begun owed) {now : Nat} (hnow : d.now ≤ now)
    {tasks : List Task} (htasks : tasks.Sublist d.tasks) :
    Paced interval m t begun owed { d with now, tasks } where
  sound := h.sound
  policy := h.policy
  idle task htask := h.idle task (htasks.subset htask)
  given := h.given
  paced time htime := by
    have hfewer : totalBy interval time (dueTimes t tasks) ≤
        totalBy interval time (dueTimes t d.tasks) :=
      totalBy_le_of_subperm ((htasks.filter _).map Task.due).subperm
    have hall := h.paced time (Nat.le_trans hnow htime)
    show checksOf (d.store.transfers.get? t) + _ + totalBy interval time (dueTimes t tasks) ≤ _
    omega

theorem wake (h : d.Paced interval m t begun owed) (task : Task) :
    (d.wake task).Paced interval m t begun owed :=
  h.later (Nat.le_max_left _ _) List.filter_sublist

theorem wake_own (h : d.Paced interval m t begun []) {task : Task} (htask : task ∈ d.tasks)
    (hon : task.job.on? = some t) (hdue : d.dueAt task = task.due) :
    (d.wake task).Paced interval m t begun [(d.wake task).now] where
  sound := h.sound
  policy := h.policy
  idle task' htask' := h.idle task' (List.mem_filter.mp htask').1
  given := h.given
  paced time htime := by
    have hlate : task.due ≤ (d.wake task).now := hdue ▸ Nat.le_max_right _ _
    have htake : totalBy interval time (task.due :: _) ≤
        totalBy interval time (dueTimes t d.tasks) :=
      totalBy_le_of_subperm (dueTimes_take htask hon)
    rw [totalBy_cons] at htake
    have hanti : checksBy interval time (d.wake task).now ≤ checksBy interval time task.due :=
      checksBy_anti hlate
    have hall := h.paced time (Nat.le_trans (Nat.le_max_left _ _) htime)
    rw [totalBy_nil] at hall
    rw [totalBy_cons, totalBy_nil]
    show checksOf (d.store.transfers.get? t) + _ +
      totalBy interval time (dueTimes t (d.tasks.filter (·.ticket != task.ticket))) ≤ _
    omega

theorem drop (h : d.Paced interval m t begun owed) : d.Paced interval m t begun [] where
  sound := h.sound
  policy := h.policy
  idle := h.idle
  given := h.given
  paced now hnow := by
    have hall := h.paced now hnow
    rw [totalBy_nil]
    omega

theorem begins (h : d.Paced interval m t begun []) :
    d.Paced interval m t (begun ++ [d.now]) [d.now] where
  sound := h.sound
  policy := h.policy
  idle := h.idle
  given := h.given
  paced now hnow := by
    have hall := h.paced now hnow
    rw [totalBy_nil] at hall
    simp only [totalBy_append, totalBy_cons, totalBy_nil]
    omega

theorem putOff {delay : Nat} {job : Job} (h : d.Paced interval m t begun [d.now + delay])
    (hon : job.on? = some t) (hidle : ∀ a, job = .settle a → a.isAsking = false) :
    (d.later delay job).Paced interval m t begun [] where
  sound := h.sound
  policy := h.policy
  idle task htask a hjob ha := by
    rcases List.mem_append.mp htask with htask | htask
    · exact h.idle task htask a hjob ha
    · rw [List.mem_singleton.mp htask] at hjob
      exact hidle a hjob
  given := h.given
  paced now hnow := by
    have hall := h.paced now hnow
    show checksOf (d.store.transfers.get? t) + _ + totalBy interval now (dueTimes t
      (d.tasks ++ [⟨d.now + delay, d.ticket, job⟩])) ≤ _
    rw [dueTimes_append, dueTimes_one hon]
    simp only [totalBy_append, totalBy_cons, totalBy_nil] at hall ⊢
    omega

theorem schedule (h : d.Paced interval m t begun []) :
    (d.schedule t).Paced interval m t (begun ++ [d.now]) [] :=
  h.begins.putOff rfl fun a ha => by
    cases ha
    rfl

theorem beginAttempt (h : d.Paced interval m t begun [d.now]) (hinterval : 0 < interval)
    (hshallow : d.Shallow t) :
    (d.beginAttempt t).1.isAsking = false ∧
      (d.beginAttempt t).2.Paced interval m t begun [(d.beginAttempt t).2.now + interval] := by
  obtain ⟨hidle, hs, hgiven, hone⟩ := short_beginAttempt h.policy h.sound h.given hshallow
  have hd : AtOnce (fun _ => False) d (d.beginAttempt t).2 := atOnce_beginAttempt d t
  have hown : ∀ job : Job, False → job.on? ≠ some t := fun _ hfalse => hfalse.elim
  refine ⟨hidle, hs, hd.options ▸ h.policy,
    fun task htask a hjob ha => h.idle_atOnce hd hown htask hjob ha, hgiven, fun now hnow => ?_⟩
  rw [hd.now] at hnow ⊢
  have hall := h.paced now hnow
  rw [hd.dueTimes_eq hown]
  simp only [totalBy_cons, totalBy_nil] at hall ⊢
  rw [checksBy_next hinterval hnow] at hall
  omega

theorem followAttempt {a : Attempt} (h : d.Paced interval m t begun [d.now + interval])
    (ha : a.transfer = t) (hidle : a.isAsking = false) :
    (d.followAttempt a).Paced interval m t begun [] := by
  unfold Desk.followAttempt
  split
  · rename_i hasks
    unfold Attempt.isAsking at hidle
    rw [hasks] at hidle
    cases hidle
  · rename_i hpolicy
    rw [h.policy] at hpolicy
    cases hpolicy
    split
    · exact h.drop
    · exact h.putOff (congrArg some ha) nofun
  · exact h.drop

/-! ### From moment to moment -/

theorem turn (h : d.Paced interval m t begun []) (hinterval : 0 < interval)
    (hshallow : d.Shallow t) {task : Task} (htask : task ∈ d.tasks) :
    (d.turn task).Paced interval m t begun [] := by
  have hs : (d.turn task).store.Sound := ((leads_turn d task).funds h.sound).1
  have hwake : (d.wake task).Shallow t := ⟨hshallow.prompt, hshallow.notFinal⟩
  rw [turn_eq] at hs ⊢
  cases hjob : task.job with
  | merge =>
    rw [hjob] at hs
    have honce : AtOnce (fun _ => False) (d.wake task) (d.wake task).mergeInbox :=
      atOnce_mergeInbox _
    refine (h.wake task).aside honce nofun hs ?_
    show ((d.wake task).mergeInbox).store.transfers.get? t = _
    rw [mergeInbox_eq, transfers_mergeAll]
  | watch w σ =>
    rw [hjob] at hs
    refine (h.wake task).aside (atOnce_resumeWatch (d.wake task) w σ)
      (fun job hmine hon => ?_) hs ?_
    · have hnone := Job.watch?_of_on hon
      rw [hmine] at hnone
      cases hnone
    · show ((d.wake task).resumeWatch w σ).store.transfers.get? t = _
      rw [store_resumeWatch]
  | settle a =>
    rw [hjob] at hs
    by_cases ha : a.transfer = t
    · have hidle := h.idle task htask a hjob ha
      have hdue : d.dueAt task = task.due := by simp [dueAt, isInterrupted, hjob]
      have hon : task.job.on? = some t := by
        rw [hjob, ← ha]
        rfl
      obtain ⟨hdone, hchecked⟩ :=
        (h.wake_own htask hon hdue).beginAttempt hinterval hwake
      have hresume : (d.wake task).resumeAttempt a =
          ((d.wake task).beginAttempt t).2.followAttempt ((d.wake task).beginAttempt t).1 := by
        unfold resumeAttempt
        rw [hidle, ha]
        rfl
      show ((d.wake task).resumeAttempt a).Paced interval m t begun []
      rw [hresume]
      exact hchecked.followAttempt (transfer_beginAttempt _ t) hdone
    · refine (h.wake task).aside (atOnce_resumeAttempt (d.wake task) a) ?_ hs
        (row_resumeAttempt (d := d.wake task) h.sound (Ne.symm ha))
      intro job hmine
      rw [hmine]
      exact fun heq => ha (Option.some.inj heq)
  | retry transfer =>
    rw [hjob] at hs
    by_cases hstopped : d.stopped = true
    · have hnothing : (d.wake task).retry transfer = d.wake task := if_pos hstopped
      show ((d.wake task).retry transfer).Paced interval m t begun []
      rw [hnothing]
      exact h.wake task
    · by_cases ht : transfer = t
      · subst ht
        have hdue : d.dueAt task = task.due := by simp [dueAt, isInterrupted, hjob, hstopped]
        obtain ⟨hdone, hchecked⟩ :=
          (h.wake_own htask (hjob ▸ rfl) hdue).beginAttempt hinterval hwake
        have hretry : (d.wake task).retry transfer =
            ((d.wake task).beginAttempt transfer).2.followAttempt
              ((d.wake task).beginAttempt transfer).1 := if_neg hstopped
        show ((d.wake task).retry transfer).Paced interval m transfer begun []
        rw [hretry]
        exact hchecked.followAttempt (transfer_beginAttempt _ transfer) hdone
      · refine (h.wake task).aside (atOnce_retry (d.wake task) transfer) ?_ hs
          (row_retry (d := d.wake task) h.sound (Ne.symm ht))
        intro job hmine
        rw [hmine]
        exact fun heq => ht (Option.some.inj heq)

theorem write (h : d.Paced interval m t begun owed) {store : Store} (hs : store.Sound)
    (hgiven : GivenUp m (store.transfers.get? t))
    (hchecks : checksOf (store.transfers.get? t) = checksOf (d.store.transfers.get? t)) :
    Paced interval m t begun owed { d with store } where
  sound := hs
  policy := h.policy
  idle := h.idle
  given := hgiven
  paced now hnow := by
    have hall := h.paced now hnow
    rw [← hchecks] at hall
    exact hall

theorem schedule_other (h : d.Paced interval m t begun []) {transfer : Nat} (hne : transfer ≠ t) :
    (d.schedule transfer).Paced interval m t begun [] :=
  h.aside (atOnce_schedule d transfer) (fun job hmine hon => hne (by
    rw [hmine] at hon
    exact Option.some.inj hon)) h.sound rfl

theorem scheduleAll (h : d.Paced interval m t begun []) (ts : List Transfer) :
    (ts.foldl (fun d t => d.schedule t.id) d).Paced interval m t
      (begun ++ List.replicate (ts.countP (·.id == t)) d.now) [] := by
  induction ts generalizing d begun with
  | nil => rwa [List.countP_nil, List.replicate_zero, List.append_nil]
  | cons r ts ih =>
    rw [List.foldl_cons]
    by_cases hr : r.id = t
    · subst hr
      have hnext := ih h.schedule
      rw [List.countP_cons_of_pos (by simp), List.replicate_succ]
      rw [List.append_assoc, List.singleton_append] at hnext
      exact hnext
    · rw [List.countP_cons_of_neg (by simpa using hr)]
      exact ih (h.schedule_other hr)

theorem createTransfer (h : d.Paced interval m t begun []) (r : TransferRequest) :
    (d.createTransfer r).2.Paced interval m t
      (begun ++ List.replicate (Moment.startsOn t d (.answer (.createTransfer r))) d.now) [] := by
  rw [Moment.startsOn_createTransfer]
  obtain ⟨fault, hnone⟩ | ⟨new, hnew⟩ := d.createTransfer_cases r
  · rw [hnone]
    simpa using h
  · have hs : (d.store.addTransfer new).2.Sound := h.sound.addTransfer new
    have hrow : (d.store.addTransfer new).2.transfers.get? t =
        if t = d.store.lastTransfer + 1 then some (d.store.addTransfer new).1
        else d.store.transfers.get? t := Store.get?_putTransfer ..
    rw [hnew]
    by_cases ht : d.store.lastTransfer + 1 = t
    · -- the transfer itself, which bears no check yet
      rw [if_pos ht.symm] at hrow
      have hfresh : d.store.transfers.get? t = none := ht ▸ h.sound.fresh_transfer
      have hgiven : GivenUp m ((d.store.addTransfer new).2.transfers.get? t) := by
        rw [hrow]
        rintro q hq hfailed
        cases hq
        cases hfailed
      have hnext := (h.write hs hgiven (by rw [hrow, hfresh]; rfl)).schedule
      simpa only [if_pos (show (d.store.addTransfer new).1.id = t from ht), ht,
        List.replicate_one] using hnext
    · rw [if_neg (Ne.symm ht)] at hrow
      have hnext := (h.write hs (hrow ▸ h.given) (by rw [hrow])).schedule_other ht
      simpa [show (d.store.addTransfer new).1.id ≠ t from ht] using hnext

theorem attachTx (h : d.Paced interval m t begun []) (transfer sender : Nat) (tx : String) :
    (d.attachTx transfer sender tx).2.Paced interval m t
      (begun ++ List.replicate
        (Moment.startsOn t d (.answer (.attachTx transfer sender tx))) d.now) [] := by
  rw [Moment.startsOn_attachTx]
  unfold Desk.attachTx
  cases hattach : d.store.attachTx transfer sender tx with
  | error fault => simpa using h
  | ok q =>
    obtain ⟨row, store⟩ := q
    obtain ⟨r, hr, -, -, rfl⟩ := Store.linkTx_eq_some (linkTx_of_attachTx hattach)
    have hs : (d.store.putTransfer { r with linkedTx := some tx }).Sound := h.sound.rewrite hr rfl
    by_cases ht : transfer = t
    · subst ht
      have hrow : (d.store.putTransfer { r with linkedTx := some tx }).transfers.get? transfer =
          some { r with linkedTx := some tx } := h.sound.get?_rewrite hr rfl
      have hgiven : GivenUp m
          ((d.store.putTransfer { r with linkedTx := some tx }).transfers.get? transfer) := by
        rw [hrow]
        rintro q hq hfailed
        cases hq
        exact h.given r hr hfailed
      simpa using (h.write hs hgiven (by rw [hrow, hr]; rfl)).schedule
    · have hrow : (d.store.putTransfer { r with linkedTx := some tx }).transfers.get? t =
          d.store.transfers.get? t := by
        refine (Store.get?_putTransfer ..).trans (if_neg ?_)
        show t ≠ r.id
        rw [h.sound.transfer_id hr]
        exact Ne.symm ht
      have hnext := (h.write hs (hrow ▸ h.given) (by rw [hrow])).schedule_other ht
      simpa [ht] using hnext

theorem resume (h : d.Paced interval m t begun []) :
    d.resume.2.Paced interval m t
      (begun ++ List.replicate (Moment.startsOn t d (.answer .resume)) d.now) [] := by
  have hd : AtOnce (fun _ => False) d d.resumeWatches.2 := atOnce_resumeWatches d
  have hstore : d.resumeWatches.2.store = d.store := store_resumeWatches d
  have hwatches : d.resumeWatches.2.Paced interval m t begun [] :=
    h.aside hd nofun (hstore ▸ h.sound) (by rw [hstore])
  have hnow := hd.now
  rw [Moment.startsOn_resume]
  unfold Desk.resume
  generalize d.resumeWatches = q at hwatches hstore hnow
  obtain ⟨answer, d'⟩ := q
  cases answer with
  | error fault => simpa using hwatches
  | ok n =>
    have hnext := hwatches.scheduleAll d'.store.unprocessedTransfers
    simp only at hstore hnow
    rw [hstore, hnow] at hnext
    simpa [resumeTransfers, hstore] using hnext

theorem restart (h : d.Paced interval m t begun []) : d.restart.Paced interval m t begun [] where
  sound := h.sound
  policy := h.policy
  idle task htask := by cases htask
  given := h.given
  paced now hnow := (h.later (Nat.le_refl _) (List.nil_sublist d.tasks)).paced now hnow

theorem begun_none {n now : Nat} (hn : n = 0) (h : d.Paced interval m t begun []) :
    d.Paced interval m t (begun ++ List.replicate n now) [] := by
  rwa [hn, List.replicate_zero, List.append_nil]

/-- Between two moments as many tasks are begun as the moment says. -/
theorem moment (h : d.Paced interval m t begun []) (hinterval : 0 < interval)
    (hshallow : d.Shallow t) {mo : Moment} (hmo : mo.Own d)
    (hheard : ∀ a, mo = .hear a → a.transfer ≠ t) :
    (mo.run d).Paced interval m t (begun ++ List.replicate (mo.startsOn t d) d.now) [] := by
  have hnone : ∀ job : Job, False → job.on? ≠ some t := fun _ hfalse => hfalse.elim
  cases mo with
  | turn task => exact begun_none rfl (h.turn hinterval hshallow hmo)
  | wait now => exact begun_none rfl (h.later hmo (List.Sublist.refl d.tasks))
  | ask tx => exact begun_none rfl (h.aside (.still rfl rfl rfl rfl) hnone h.sound rfl)
  | begin transfer =>
    by_cases ht : transfer = t
    · subst ht
      have hchecked := (h.begins.beginAttempt hinterval hshallow).2.drop
      rw [show Moment.startsOn transfer d (.begin transfer) = 1 from if_pos rfl]
      exact hchecked
    · exact begun_none (if_neg ht) (h.aside (atOnce_beginAttempt d transfer) hnone
        ((leads_beginAttempt d transfer).funds h.sound).1
        (row_beginAttempt h.sound (Ne.symm ht)))
  | hear a =>
    exact begun_none rfl (h.aside (atOnce_hearAttempt d a) hnone
      ((leads_hearAttempt d a).funds h.sound).1
      (row_hearAttempt h.sound (Ne.symm (hheard a rfl))))
  | answer op =>
    by_cases hbeside : op.isBeside = true
    · have hzero : Moment.startsOn t d (.answer op) = 0 := by
        cases op with
        | createTransfer | attachTx | resumeTransfers | resume => cases hbeside
        | _ => rfl
      exact begun_none hzero (h.aside (atOnce_beside hbeside) hnone
        ((Op.leads_run d op).funds h.sound).1
        (congrArg (·.get? t) (SameTransfers.beside d hbeside)))
    · cases op with
      | createTransfer r => exact h.createTransfer r
      | attachTx transfer sender tx => exact h.attachTx transfer sender tx
      | resumeTransfers => exact h.scheduleAll _
      | resume => exact h.resume
      | restart => exact begun_none rfl h.restart
      | _ => exact absurd hmo hbeside

end Paced

/-! ### Every run -/

def startsOf (t : Nat) (d : Desk) : List Moment → List Nat
  | [] => []
  | mo :: ms => List.replicate (mo.startsOn t d) d.now ++ startsOf t (mo.run d) ms

theorem startsOf_append (t : Nat) (d : Desk) (ms ms' : List Moment) :
    startsOf t d (ms ++ ms') = startsOf t d ms ++ startsOf t (d.runMoments ms) ms' := by
  induction ms generalizing d with
  | nil => rfl
  | cons mo ms ih =>
    show _ ++ startsOf t (mo.run d) (ms ++ ms') = (_ ++ startsOf t (mo.run d) ms) ++ _
    rw [ih, List.append_assoc]
    rfl

theorem Paced.run {begun : List Nat} {ms : List Moment} (h : d.Paced interval m t begun [])
    (hinterval : 0 < interval) (hms : d.OwnMoments ms)
    (hshallow : ∀ n < ms.length, (d.runMoments (ms.take n)).Shallow t)
    (hheard : ∀ a, .hear a ∈ ms → a.transfer ≠ t) :
    (d.runMoments ms).Paced interval m t (begun ++ startsOf t d ms) [] := by
  induction ms generalizing d begun with
  | nil => exact (List.append_nil begun).symm ▸ h
  | cons mo ms ih =>
    have hfirst := h.moment hinterval (hshallow 0 (Nat.zero_lt_succ _)) hms.1
      fun a ha => hheard a (ha ▸ List.mem_cons_self)
    have hrest := ih hfirst hms.2
      (fun n hn => hshallow (n + 1) (Nat.succ_lt_succ hn))
      fun a ha => hheard a (List.mem_cons_of_mem _ ha)
    rw [List.append_assoc] at hrest
    exact hrest

theorem Paced.le_totalBy {begun : List Nat} (h : d.Paced interval m t begun []) {r : Transfer}
    (hr : d.store.transfers.get? t = some r) (hfailed : r.status = .failed) :
    m ≤ totalBy interval d.now begun := by
  have hgiven : m ≤ checksOf (d.store.transfers.get? t) := by
    rw [hr]
    exact h.given r hr hfailed
  have hpaced := h.paced d.now (Nat.le_refl _)
  omega

def Creates (t : Nat) (d : Desk) : Moment → Prop
  | .answer (.createTransfer r) => ∃ row, (d.createTransfer r).1 = .ok row ∧ row.id = t
  | _ => False

theorem startsOn_of_creates {mo : Moment} (h : Creates t d mo) : mo.startsOn t d = 1 := by
  unfold Creates at h
  split at h
  · obtain ⟨row, hanswer, hid⟩ := h
    rw [Moment.startsOn_createTransfer, hanswer]
    exact if_pos hid
  · exact h.elim

theorem now_mem_startsOf {ms : List Moment} {mo : Moment} (ms' : List Moment)
    (h : Creates t (d.runMoments ms) mo) :
    (d.runMoments ms).now ∈ startsOf t d (ms ++ mo :: ms') := by
  rw [startsOf_append, startsOf, startsOn_of_creates h]
  simp

theorem startsOf_eq_singleton {ms : List Moment} {mo : Moment} {ms' : List Moment}
    (h : Creates t (d.runMoments ms) mo) (hone : (startsOf t d (ms ++ mo :: ms')).length = 1) :
    startsOf t d (ms ++ mo :: ms') = [(d.runMoments ms).now] := by
  obtain ⟨time, htime⟩ := List.length_eq_one_iff.mp hone
  have hmem := now_mem_startsOf ms' h
  rw [htime] at hmem ⊢
  rw [List.mem_singleton.mp hmem]

theorem le_of_le_checksBy {now since : Nat} (hsince : since ≤ now)
    (h : m ≤ checksBy interval now since) : since + (m - 1) * interval ≤ now := by
  unfold checksBy at h
  rw [if_pos hsince] at h
  have hmul : (m - 1) * interval ≤ (now - since) / interval * interval :=
    Nat.mul_le_mul_right interval (Nat.sub_le_of_le_add h)
  have hdiv : (now - since) / interval * interval ≤ now - since := Nat.div_mul_le_self ..
  omega

/-- **A transfer is not given up sooner than its tasks allow.** Let the node answer
every look-up of a transfer at once and never with a final depth, at every moment
of a run (`Desk.passes_runOps`) under a retrying policy. When the transfer is
stored as failed, the tasks begun on it, each with a check when it was begun and
one after each interval, can have made the allowed number of checks by then. If
the only one is that which was begun when it was stored, then all intervals
between the checks have passed. -/
theorem given_up_no_sooner {options : Options} (hpolicy : options.policy = .retry interval m)
    {ms : List Moment} (hms : (start options).OwnMoments ms)
    (hshallow : ∀ n < ms.length, ((start options).runMoments (ms.take n)).Shallow t)
    (hheard : ∀ a, .hear a ∈ ms → a.transfer ≠ t) {r : Transfer}
    (hr : ((start options).runMoments ms).store.transfers.get? t = some r)
    (hfailed : r.status = .failed) :
    let starts := startsOf t (start options) ms
    let now := ((start options).runMoments ms).now
    (0 < interval → m ≤ totalBy interval now starts) ∧
      ∀ ms₁ mo ms₂, ms = ms₁ ++ mo :: ms₂ → Creates t ((start options).runMoments ms₁) mo →
        starts.length = 1 → ((start options).runMoments ms₁).now + (m - 1) * interval ≤ now := by
  intro starts now
  have hall : 0 < interval → m ≤ totalBy interval now starts := fun hinterval =>
    ((Paced.start options hpolicy t).run hinterval hms hshallow hheard).le_totalBy hr hfailed
  refine ⟨hall, fun ms₁ mo ms₂ hsplit hcreates hone => ?_⟩
  subst hsplit
  have hstarts : starts = [((start options).runMoments ms₁).now] :=
    startsOf_eq_singleton hcreates hone
  have hclock : ((start options).runMoments ms₁).now ≤ now := by
    have hrest := now_le_runMoments hms.rest
    rwa [← runMoments_append] at hrest
  rcases Nat.eq_zero_or_pos interval with hzero | hinterval
  · rwa [hzero, Nat.mul_zero, Nat.add_zero]
  · have hchecks := hall hinterval
    rw [hstarts, totalBy_cons, totalBy_nil, Nat.add_zero] at hchecks
    exact le_of_le_checksBy hclock hchecks

theorem shallow_of_empty (h : d.node = .empty) : d.Shallow t where
  prompt := congrArg Node.Script.lookupDelay h
  notFinal r _ tx _ := .inr ⟨tx, by rw [h]; rfl⟩

def twoChecks : Options := { (ofStore .empty).options with policy := .retry 60000 2 }

def checkedOnce : List Moment :=
  [.answer (.createWallet 1 "BTC" (some "a") false),
    .answer (.createWallet 2 "BTC" (some "b") false), .answer (.setBalance 1 100),
    .answer (.createTransfer {
      source := 1, amount := 25, sender := 1, receiverAddress := "b", priceCurrency := "BTC"
      payCurrency := "BTC", comment := "", linkedTx := some World.firstTx }),
    .turn { due := 0, ticket := 0, job := .settle (.start 1) }]

/-- The second check is due after a minute. -/
def checkedTwice : List Moment :=
  checkedOnce ++ [.wait 60000, .turn { due := 60000, ticket := 1, job := .retry 1 }]

/-- Another transaction is linked, and checked at once. -/
def checkedAgain : List Moment :=
  checkedOnce ++ [.answer (.attachTx 1 1 World.secondTx),
    .turn { due := 0, ticket := 2, job := .settle (.start 1) }]

/-- With one task the transfer fails when the minute has passed. -/
theorem given_up_no_sooner_checkedTwice :
    let d := (start twoChecks).runMoments checkedTwice
    (d.store.transfers.get? 1).map (·.status) = some .failed ∧ 0 + (2 - 1) * 60000 ≤ d.now := by
  intro d
  have hfailed : (d.store.transfers.get? 1).map (·.status) = some .failed := by decide +kernel
  obtain ⟨r, hr, hstatus⟩ := Option.map_eq_some_iff.mp hfailed
  have hpolicy : twoChecks.policy = .retry 60000 2 := rfl
  have hnode : ∀ n < checkedTwice.length,
      ((start twoChecks).runMoments (checkedTwice.take n)).node = .empty := by decide +kernel
  have hms : (start twoChecks).OwnMoments checkedTwice := by decide +kernel
  obtain ⟨-, hfirst⟩ := given_up_no_sooner hpolicy hms
    (fun n hn => shallow_of_empty (hnode n hn)) (by simp [checkedTwice, checkedOnce]) hr hstatus
  exact ⟨hfailed, hfirst (checkedTwice.take 3) _ _ rfl ⟨_, rfl, rfl⟩ (by decide +kernel)⟩

/-- With a second task, begun by linking another transaction, it has failed
before any time has passed. -/
theorem given_up_sooner_linked :
    ¬∀ (options : Options) (interval m t : Nat) (ms₁ : List Moment) (mo : Moment)
        (ms₂ : List Moment), 1 ≤ m → options.policy = .retry interval m →
      (start options).OwnMoments (ms₁ ++ mo :: ms₂) →
      (∀ n < (ms₁ ++ mo :: ms₂).length,
        ((start options).runMoments ((ms₁ ++ mo :: ms₂).take n)).Shallow t) →
      (∀ a, .hear a ∈ ms₁ ++ mo :: ms₂ → a.transfer ≠ t) →
      Creates t ((start options).runMoments ms₁) mo →
      ∀ r, ((start options).runMoments (ms₁ ++ mo :: ms₂)).store.transfers.get? t = some r →
        r.status = .failed →
        ((start options).runMoments ms₁).now + (m - 1) * interval ≤
          ((start options).runMoments (ms₁ ++ mo :: ms₂)).now := by
  intro h
  let d := (start twoChecks).runMoments checkedAgain
  have hfailed : (d.store.transfers.get? 1).map (·.status) = some .failed := by decide +kernel
  obtain ⟨r, hr, hstatus⟩ := Option.map_eq_some_iff.mp hfailed
  have hnode : ∀ n < checkedAgain.length,
      ((start twoChecks).runMoments (checkedAgain.take n)).node = .empty := by decide +kernel
  have hminute : 0 + (2 - 1) * 60000 ≤ d.now :=
    h twoChecks 60000 2 1 (checkedAgain.take 3) _ _ (by decide) rfl (by decide +kernel)
      (fun n hn => shallow_of_empty (hnode n hn)) (by simp [checkedAgain, checkedOnce])
      ⟨_, rfl, rfl⟩ r hr hstatus
  have hnow : d.now = 0 := by decide +kernel
  omega

end Desk
end Clearing

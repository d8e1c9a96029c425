import Clearing.Proofs.Notices
import Clearing.Proofs.Rounds
import Clearing.Proofs.JobSteps

/-!
# Retries are bounded

The bound on the attempts is kept by a count in the store, which all tasks of a
transfer share and which outlives them. A desk does not keep its ended tasks,
nor what its attempts came to; so its runs are matched by rounds, with a task
for each job that works on a transfer.
-/

namespace Clearing

open Attempt

/-! ### What is taken on next -/

/-- The attempt that a task takes on after this one: itself if the node has to
answer it, and a new one if it was deferred. -/
def Attempt.next? (a : Attempt) : Option Attempt :=
  match a.stage with
  | .asking _ => some a
  | .done (.ok (.deferred _)) => some (.start a.transfer)
  | _ => none

def Loop.next? (l : Loop) : Option Attempt :=
  match l.attempts with
  | [] => some (.start l.transfer)
  | a :: _ => a.next?

def Job.next? : Job → Option Attempt
  | .settle a => some (if a.isAsking then a else .start a.transfer)
  | .retry transfer => some (.start transfer)
  | _ => none

theorem Job.next?_of_begins {job : Job} {t : Nat} (h : job.begins? = some t) :
    job.next? = some (.start t) := by
  cases job with
  | merge | watch w stage => cases h
  | retry transfer =>
    cases h
    rfl
  | settle a =>
    cases hasks : a.isAsking with
    | true => simp [begins?, hasks] at h
    | false =>
      simp only [begins?, hasks, Bool.false_eq_true, if_false] at h
      cases h
      simp [next?, hasks]

theorem Attempt.filterMap_rest (a : Attempt) : a.rest.filterMap Job.next? = a.next?.toList := by
  obtain ⟨t, σ⟩ := a
  match σ with
  | .asking _ => rfl
  | .done (.error _) => rfl
  | .done (.ok .alreadyProcessed) => rfl
  | .done (.ok (.deferred _)) => rfl
  | .done (.ok (.settled _)) => rfl
  | .opening | .claiming | .debiting _ | .crediting _ | .refunding _ | .finishing _ | .counting _
  | .closing | .reporting => rfl

namespace Loop

variable {l : Loop}

theorem ready_of_next {t : Nat} (hl : l.Kept) (h : l.next? = some (.start t)) :
    l.isReady = true ∧ l.transfer = t := by
  unfold next? at h
  have hown := hl.own
  unfold isReady
  cases hattempts : l.attempts with
  | nil =>
    rw [hattempts] at h
    exact ⟨rfl, congrArg Attempt.transfer (Option.some.inj h)⟩
  | cons a past =>
    rw [hattempts] at h hown
    have htransfer := hown a List.mem_cons_self
    unfold Attempt.next? at h
    simp only at h
    split at h
    · rename_i tx hs
      cases Option.some.inj h
      cases hs
    · rename_i checks hs
      refine ⟨?_, htransfer.symm.trans (congrArg Attempt.transfer (Option.some.inj h))⟩
      simp only
      unfold isDeferred
      rw [hs]
    · cases h

theorem waits_of_next {a : Attempt} (ha : a.isAsking = true) (h : l.next? = some a) :
    ∃ past, l.attempts = a :: past := by
  unfold next? at h
  split at h
  · rw [← Option.some.inj h] at ha
    cases ha
  · rename_i b past hattempts
    unfold Attempt.next? at h
    split at h
    · exact ⟨past, Option.some.inj h ▸ hattempts⟩
    · rw [← Option.some.inj h] at ha
      cases ha
    · cases h

theorem subperm_set {loops : List Loop} {i : Nat} {l' : Loop} {c : Attempt} {js : List Attempt}
    (hl : loops[i]? = some l) (hc : l.next? = some c)
    (h : (c :: js).Subperm (loops.filterMap next?)) :
    (l'.next?.toList ++ js).Subperm ((loops.set i l').filterMap next?) := by
  obtain ⟨hi, hget⟩ := List.getElem?_eq_some_iff.mp hl
  obtain ⟨front, back, hloops, -, hset⟩ := @List.exists_of_set _ i l' _ hi
  rw [hget] at hloops
  rw [hset, List.filterMap_append]
  rw [hloops, List.filterMap_append, List.filterMap_cons_some hc] at h
  have hrest : js.Subperm (front.filterMap next? ++ back.filterMap next?) :=
    (List.subperm_cons c).mp (h.trans List.perm_middle.subperm)
  have hnew : ((l' :: back).filterMap next?) = l'.next?.toList ++ back.filterMap next? := by
    rw [List.filterMap_cons]
    cases l'.next? <;> rfl
  rw [hnew]
  exact ((List.subperm_append_left _).mpr hrest).trans
    (List.perm_append_comm_assoc ..).subperm

end Loop

namespace Rounds

variable {x : Rounds} {d d' : Desk} {hand hand' : List Job} {interval m : Nat}

/-- The rounds have come to the store of a desk, with a task for each of its
jobs, those in hand among them, that works on a transfer. -/
structure Carries (x : Rounds) (d : Desk) (hand : List Job) : Prop where
  store : x.store = d.store
  jobs : ((d.jobs hand).filterMap Job.next?).Subperm (x.loops.filterMap Loop.next?)

theorem Carries.start (options : Options) : empty.Carries (Desk.start options) [] where
  store := rfl
  jobs := List.nil_subperm

/-! ### One step -/

theorem Carries.of_jobs (h : x.Carries d hand) (hstore : d'.store = d.store)
    (hjobs : (d'.jobs hand').Subperm (d.jobs hand)) : x.Carries d' hand' where
  store := h.store.trans hstore.symm
  jobs := (Desk.filterMap_jobs hjobs Job.next?).trans h.jobs

theorem Carries.drop {job : Job} (h : x.Carries d (job :: hand)) : x.Carries d hand :=
  h.of_jobs rfl (List.sublist_cons_self ..).subperm

theorem Carries.put {job : Job} (hjob : job.next? = none) (h : x.Carries d hand) :
    x.Carries d (job :: hand) where
  store := h.store
  jobs := by
    have hnone : (d.jobs (job :: hand)).filterMap Job.next? =
        (d.jobs hand).filterMap Job.next? := List.filterMap_cons_none hjob
    rw [hnone]
    exact h.jobs

theorem Carries.later {job : Job} (h : x.Carries d (job :: hand)) (delay : Nat) :
    x.Carries (d.later delay job) hand :=
  h.of_jobs rfl (Desk.jobs_later delay job).subperm

theorem Carries.write (h : x.Carries d hand) (w : Write) (policy : Policy)
    (hstore : d'.store = w.run d.store) (htasks : d'.tasks = d.tasks) :
    (x.run policy [.write w]).Carries d' hand where
  store := by
    show w.run x.store = d'.store
    rw [h.store, hstore]
  jobs := by
    unfold Desk.jobs
    rw [htasks]
    exact h.jobs

theorem Carries.schedule {job : Job} (h : x.Carries d hand) {t : Nat}
    (hjob : job.next? = some (.start t)) (policy : Policy) :
    (x.run policy [.schedule t]).Carries d (job :: hand) where
  store := h.store
  jobs := by
    have hjobs : (d.jobs (job :: hand)).filterMap Job.next? =
        Attempt.start t :: (d.jobs hand).filterMap Job.next? := List.filterMap_cons_some hjob
    show ((d.jobs (job :: hand)).filterMap Job.next?).Subperm
      ((x.loops ++ [Loop.start t]).filterMap Loop.next?)
    rw [hjobs, List.filterMap_append]
    exact ((List.subperm_cons _).mpr h.jobs).trans (List.perm_append_singleton ..).symm.subperm

theorem Carries.goOn {job : Job} (h : x.Carries d (job :: hand)) {i : Nat} {l : Loop} {c : Attempt}
    (hl : x.loops[i]? = some l) (hc : l.next? = some c) (hjob : job.next? = some c)
    (past : List Attempt) (a : Attempt) :
    (x.goOn d.options.policy i l.transfer past a).Carries (d.proceed a).2
      ((d.proceed a).1.rest ++ hand) where
  store := by
    show (a.proceed d.options.policy x.store).2.1 = (a.proceed d.options.policy d.store).2.1
    rw [h.store]
  jobs := by
    have hjobs : (d.jobs (job :: hand)).filterMap Job.next? =
        c :: (d.jobs hand).filterMap Job.next? := List.filterMap_cons_some hjob
    have hrest : ((d.proceed a).2.jobs ((d.proceed a).1.rest ++ hand)).filterMap Job.next? =
        (d.proceed a).1.next?.toList ++ (d.jobs hand).filterMap Job.next? := by
      show (((d.proceed a).1.rest ++ hand) ++ d.tasks.map Task.job).filterMap Job.next? = _
      rw [List.append_assoc, List.filterMap_append, filterMap_rest]
      rfl
    have hold := h.jobs
    rw [hjobs] at hold
    have hnew := @Loop.subperm_set l x.loops i
      { transfer := l.transfer, attempts := (a.proceed d.options.policy x.store).1 :: past } c _
      hl hc hold
    rw [hrest]
    rw [h.store] at hnew
    show List.Subperm _ ((x.loops.set i _).filterMap Loop.next?)
    rw [h.store]
    exact hnew

theorem Carries.loop {job : Job} (h : x.Carries d (job :: hand)) {c : Attempt}
    (hjob : job.next? = some c) :
    ∃ (i : Nat) (l : Loop), x.loops[i]? = some l ∧ l.next? = some c := by
  have hmem : c ∈ (d.jobs (job :: hand)).filterMap Job.next? :=
    List.mem_filterMap.mpr ⟨job, List.mem_cons_self, hjob⟩
  obtain ⟨l, hl, hc⟩ := List.mem_filterMap.mp (h.jobs.subset hmem)
  obtain ⟨i, hi⟩ := List.mem_iff_getElem?.mp hl
  exact ⟨i, l, hi, hc⟩

theorem Carries.watch (h : x.Carries d hand) (address : String) (network : Network)
    (observer : Observer) : x.Carries (d.watch address network observer).2 hand := by
  unfold Desk.watch
  split
  · exact h
  · rename_i w registry _
    have hput : x.Carries d (.watch w .pausing :: hand) := h.put rfl
    have hnew : x.Carries { d with registry } (.watch w .pausing :: hand) :=
      hput.of_jobs rfl (.refl _)
    exact hnew.later 0

theorem Carries.submit (h : x.Carries d hand) (u : Update) : x.Carries (d.submit u).2 hand where
  store := h.store.trans (Desk.store_submit d u).symm
  jobs := by
    obtain hjobs | hjobs := @Desk.jobs_submit d hand u
    · rw [hjobs]
      exact h.jobs
    · rw [hjobs, List.filterMap_append]
      exact (List.append_nil _).symm ▸ h.jobs

/-- Whatever a desk does, there are rounds that lead there. -/
theorem carries_jobStep (hx : x.Bounded m) (h : x.Carries d hand) (hs : d.JobStep hand d' hand') :
    ∃ rounds, (x.run d.options.policy rounds).Carries d' hand' := by
  cases hs with
  | wait | call | see | takeJournal | clearInbox | cancelAddress | cancelHandle | stopWatches
  | stop => exact ⟨[], h.of_jobs rfl (.refl _)⟩
  | restart => exact ⟨[], h.of_jobs rfl List.nil_subperm⟩
  | take now ht => exact ⟨[], h.of_jobs rfl (Desk.jobs_take now ht)⟩
  | sort hperm => exact ⟨[], h.of_jobs rfl (hperm.append_right _).symm.subperm⟩
  | drop hjob => exact ⟨[], h.drop⟩
  | later delay job => exact ⟨[], h.later delay⟩
  | submit u => exact ⟨[], h.submit u⟩
  | watch address network observer => exact ⟨[], h.watch address network observer⟩
  | goOn τ => exact ⟨[], h.drop.put rfl⟩
  | endWatch hw => exact ⟨[], h.of_jobs rfl (List.sublist_cons_self ..).subperm⟩
  | apply u =>
    obtain ⟨rows, hstore⟩ := d.store_apply_payments u
    exact ⟨_, h.write (.payments rows) _ hstore (Desk.tasks_apply d u)⟩
  | payments rows => exact ⟨_, h.write (.payments rows) _ rfl rfl⟩
  | ledger op => exact ⟨_, h.write (.ledger op) _ rfl rfl⟩
  | addTransfer new => exact ⟨_, h.write (.create new) _ rfl rfl⟩
  | @linkTx hand id tx t store hlink =>
    refine ⟨_, h.write (.link id tx) _ ?_ rfl⟩
    show store = d.store.after (d.store.linkTx id tx)
    rw [hlink]
    rfl
  | schedule t =>
    have hnew : (x.run d.options.policy [.schedule t]).Carries d (.settle (.start t) :: hand) :=
      h.schedule rfl _
    exact ⟨_, hnew.later 0⟩
  | attempt t => exact ⟨_, h.schedule rfl _⟩
  | @begin hand job t hbegins =>
    have hjob := Job.next?_of_begins hbegins
    obtain ⟨i, l, hl, hc⟩ := h.loop hjob
    obtain ⟨hready, rfl⟩ := Loop.ready_of_next (hx.kept l (List.mem_of_getElem? hl)) hc
    refine ⟨[.begin i], ?_⟩
    have hstep := step_begin d.options.policy hl hready
    show (x.step d.options.policy (.begin i)).Carries _ _
    rw [hstep]
    exact h.goOn hl hc hjob l.attempts (.start l.transfer)
  | @answer hand a tx hasking depth =>
    have hasks : a.isAsking = true := by
      unfold isAsking
      rw [hasking]
    have hjob : (Job.settle a).next? = some a := congrArg some (if_pos hasks)
    obtain ⟨i, l, hl, hc⟩ := h.loop hjob
    obtain ⟨past, hattempts⟩ := Loop.waits_of_next hasks hc
    refine ⟨[.answer i depth], ?_⟩
    have hstep := step_answer d.options.policy hl hattempts hasks depth
    show (x.step d.options.policy (.answer i depth)).Carries _ _
    rw [hstep]
    exact h.goOn hl hc hjob past (a.heard d.options.policy depth)

/-! ### Every run -/

theorem carries_runOps {options : Options} {ops : List Desk.Op}
    (hpolicy : options.policy = .retry interval m) (hops : (Desk.start options).OwnOps ops) :
    ∃ rounds, (empty.run (.retry interval m) rounds).Carries
      ((Desk.start options).runOps ops) [] := by
  obtain ⟨-, hcarries⟩ := (Desk.jobSteps_runOps hops).invariant
    (P := fun d hand => d.options.policy = .retry interval m ∧
      ∃ rounds, (empty.run (.retry interval m) rounds).Carries d hand)
    (fun {d hand d' hand'} h hs => by
      obtain ⟨hp, rounds, hcarries⟩ := h
      obtain ⟨more, hmore⟩ := carries_jobStep ((Bounded.empty m).run rounds) hcarries hs
      rw [hp, ← run_append] at hmore
      exact ⟨by rw [Desk.options_jobStep hs, hp], _, hmore⟩)
    ⟨hpolicy, [], .start options⟩
  exact hcarries

/-- **Retries are bounded.** Attempts retry until `m` checks were made, in any
number of tasks; links, balances and payments change meanwhile, and the node answers
anything, at any time or never. Then no transfer bears more checks than `m`, or one
where `m` is zero, and fewer of its attempts were deferred; no task makes more
attempts, and the node is not asked again for a transfer that is processed. Whatever
is asked of a desk that retries, such rounds lead to its store. -/
theorem retries_bounded (interval m : Nat) (rounds later : List Round) :
    let x := empty.run (.retry interval m) rounds
    (∀ t r, x.store.transfers.get? t = some r →
      r.checks ≤ max m 1 ∧ (m < UInt32.size → r.checks < UInt32.size) ∧
        (r.isProcessed = false → r.checks = x.deferrals t ∧ r.checks < max m 1)) ∧
    (∀ t, x.deferrals t ≤ max m 1 - 1) ∧
    (∀ l ∈ x.loops, l.attempts.length ≤ max m 1 ∧
      (l.attempts.length = max m 1 → l.isReady = false)) ∧
    (∀ t, x.store.IsProcessed t →
      (x.run (.retry interval m) later).lookups.count t = x.lookups.count t) ∧
    ∀ (options : Options) (ops : List Desk.Op), options.policy = .retry interval m →
      (Desk.start options).OwnOps ops →
      ∃ rounds, (empty.run (.retry interval m) rounds).Carries
        ((Desk.start options).runOps ops) [] := by
  intro x
  have hx : x.Bounded m := (Bounded.empty m).run rounds
  refine ⟨fun t r hr => ?_, fun t => ?_, fun l hl => hx.length_attempts hl,
    fun t ht => hx.lookups_run ht later, fun options ops => carries_runOps⟩
  · have hchecked := hx.checked t
    rw [hr] at hchecked
    obtain ⟨hlt, hle, hopen⟩ := hchecked
    have hsize : 1 < UInt32.size := by decide
    refine ⟨hle, fun hm => by omega, fun hp => ⟨hopen hp, ?_⟩⟩
    rw [hopen hp]
    exact hlt
  · exact Nat.le_sub_one_of_lt (hx.checked t).lt

def anyTransfer : NewTransfer where
  source := 1
  receiver := 2
  amount := 25
  priceCurrency := "BTC"
  payCurrency := "BTC"
  comment := ""
  sender := 1
  receiverAddress := "b"
  linkedTx := some World.firstTx

/-- Two tasks ask the node for the first transfer at a time, and a third one for
the second. All are answered that the transaction is not final yet; then the
first task has its second attempt. -/
def threeTasks : List Round :=
  [.write (.create anyTransfer), .write (.create anyTransfer), .schedule 1, .schedule 1,
    .schedule 2, .begin 0, .begin 1, .begin 2, .answer 0 (.ok 0), .answer 1 (.ok 2),
    .answer 2 (.ok 5), .begin 0]

/-- With two checks allowed, the second answer for the first transfer closes it,
and a task that comes later asks no more. -/
theorem retries_bounded_threeTasks :
    let x := empty.run (.retry 1000 2) threeTasks
    (∃ r, x.store.transfers.get? 1 = some r ∧ r.checks = 2 ∧ r.isProcessed = true ∧
      r.checks < UInt32.size) ∧
    (∃ r, x.store.transfers.get? 2 = some r ∧ r.isProcessed = false ∧
      r.checks = x.deferrals 2 ∧ r.checks < 2) ∧
    (∃ l ∈ x.loops, l.transfer = 1 ∧ l.attempts.length = 2 ∧ l.isReady = false) ∧
    (x.run (.retry 1000 2) [.schedule 1, .begin 3]).lookups.count 1 = 2 ∧
    ∃ rounds, (empty.run (.retry 1000 2) rounds).Carries ((Desk.start
      { (Desk.ofStore .empty).options with policy := .retry 1000 2 }).runOps [.settle 1 2]) [] := by
  intro x
  obtain ⟨hrows, -, hloops, hlookups, hdesk⟩ :=
    retries_bounded 1000 2 threeTasks [.schedule 1, .begin 3]
  obtain ⟨first, hfirst, hchecks, hclosed⟩ :
      ∃ r, x.store.transfers.get? 1 = some r ∧ r.checks = 2 ∧ r.isProcessed = true :=
    ⟨_, rfl, rfl, rfl⟩
  obtain ⟨second, hsecond, hopen⟩ :
      ∃ r, x.store.transfers.get? 2 = some r ∧ r.isProcessed = false := ⟨_, rfl, rfl⟩
  obtain ⟨l, hl, htransfer, hlength⟩ :
      ∃ l ∈ x.loops, l.transfer = 1 ∧ l.attempts.length = 2 :=
    ⟨x.loops.get ⟨0, by decide⟩, List.get_mem .., rfl, rfl⟩
  have hcount : x.lookups.count 1 = 2 := rfl
  refine ⟨⟨first, hfirst, hchecks, hclosed, (hrows 1 first hfirst).2.1 (by decide)⟩,
    ⟨second, hsecond, hopen, (hrows 2 second hsecond).2.2 hopen⟩,
    ⟨l, hl, htransfer, hlength, (hloops l hl).2 hlength⟩,
    (hlookups 1 ⟨first, hfirst, hclosed⟩).trans hcount,
    hdesk _ [.settle 1 2] rfl ⟨trivial, trivial⟩⟩

end Rounds
end Clearing

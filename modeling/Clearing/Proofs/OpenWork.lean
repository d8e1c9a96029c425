import Clearing.Proofs.LiveWatches
import Clearing.Proofs.Moments
import Clearing.Proofs.Restart
import Clearing.Proofs.StoredPayments

/-!
# What is open is taken up

A service may stop between any two transactions and find its store so when it
opens anew. In all these stores the payments read back and the transfers stand
under their own numbers, and no more than that is needed. No registration can
fail that is made while the registry runs, but at an address that is watched,
which is passed over; so the transfers come after the watches in any case.
-/

namespace Clearing

open Attempt

namespace Store

/-! ### What can be left behind -/

/-- One transaction on the store. -/
inductive Written (s : Store) : Store → Prop
  | ledger (op : Ledger.Op) : Written s (op.run s)
  | addPayment {p s'} (hwaits : p.status = .waiting) (h : s.addPayment p = .ok s') : Written s s'
  | removePayment (id : String) : Written s (s.removePayment id).2
  | merge {u : Update} (hu : u.status.InWindow) : Written s (s.after (s.merge u))
  | addTransfer (new : NewTransfer) : Written s (s.addTransfer new).2
  | linkTx {id tx t s'} (h : s.linkTx id tx = .ok (some t, s')) : Written s s'
  | attempt {policy id σ d τ s'} (h : Turn policy s id σ d τ s') : Written s s'

/-- What a service can leave behind that began with an empty store and is stopped
between two transactions. -/
inductive Left : Store → Prop
  | empty : Left .empty
  | written {s s'} (h : Left s) (h' : s.Written s') : Left s'

variable {s s' : Store}

theorem Written.sound (h : s.Written s') (hs : s.Sound) : s'.Sound := by
  cases h with
  | ledger op => exact (op.moves_run hs).sound
  | addPayment hwaits h =>
    obtain ⟨-, rfl⟩ := addPayment_eq_ok h
    exact hs.congr rfl rfl rfl rfl
  | removePayment id => exact hs.congr rfl rfl rfl rfl
  | @merge u hu =>
    cases hmerge : s.merge u with
    | error fault => exact hs
    | ok q => exact ((Commits.merge hmerge).funds hs).1
  | addTransfer new => exact hs.addTransfer new
  | linkTx h => exact ((Commits.linkTx h).funds hs).1
  | attempt h => exact h.sound hs

theorem Written.legible (h : s.Written s') (hs : s.Legible) : s'.Legible := by
  cases h with
  | ledger op => exact hs.congr (Ledger.Op.payments_run s op)
  | addPayment hwaits h =>
    obtain ⟨-, rfl⟩ := addPayment_eq_ok h
    exact hs.putPayment hwaits
  | removePayment id => exact hs.removePayment id
  | merge hu => exact hs.merge hu
  | addTransfer new => exact hs.congr rfl
  | linkTx h =>
    obtain ⟨r, -, -, -, rfl⟩ := linkTx_eq_some h
    exact hs.congr rfl
  | attempt h => exact hs.congr h.payments

namespace Left

theorem sound (h : s.Left) : s.Sound := by
  induction h with
  | empty => exact sound_empty
  | written _ h' ih => exact h'.sound ih

theorem legible (h : s.Left) : s.Legible := by
  induction h with
  | empty => exact ⟨nofun, nofun⟩
  | written _ h' ih => exact h'.legible ih

theorem proceed (h : s.Left) (policy : Policy) (a : Attempt) : (a.proceed policy s).2.1.Left :=
  (steps_invariant policy a.transfer (P := fun s' _ => s'.Left)
    (fun h hturn => h.written (.attempt hturn)) a.stage.remaining a s rfl h).1

end Left

/-! ### What is open in a store -/

theorem Sound.nodup_unprocessed (hs : s.Sound) : (s.unprocessedTransfers.map (·.id)).Nodup := by
  have hids : s.transfers.rows.map (·.id) = s.transfers.entries.map (·.1) := by
    unfold Table.rows
    rw [List.map_map]
    refine List.map_congr_left fun e he => ?_
    exact hs.transfer_id ((Table.mem_iff_get? s.transfers e.1 e.2).mp he)
  have hrows : (s.transfers.rows.map (·.id)).Nodup := by
    rw [hids, List.Nodup, List.pairwise_map]
    exact s.transfers.sorted.imp fun hlt => Nat.ne_of_lt (Nat.compare_eq_lt.mp hlt)
  exact hrows.sublist (List.filter_sublist.map _)

theorem Sound.countP_unprocessed (hs : s.Sound) (t : Nat) :
    s.unprocessedTransfers.countP (·.id == t) =
      if (s.transfers.get? t).any (!·.isProcessed) then 1 else 0 := by
  have hcount : s.unprocessedTransfers.countP (·.id == t) =
      (s.unprocessedTransfers.map (·.id)).count t := by
    rw [List.count, List.countP_map]
    rfl
  rw [hcount, hs.nodup_unprocessed.count]
  refine if_congr ?_ rfl rfl
  rw [List.mem_map, hs.unprocessed_iff, Option.any_eq_true]
  simp

end Store

namespace Desk

variable {d d' : Desk} {as : List String}

/-! ### What a desk leaves behind -/

theorem left_mergeAll (h : d.store.Left) {us : List Update} (hus : ∀ u ∈ us, u.status.InWindow) :
    (d.mergeAll us).store.Left := by
  induction us generalizing d with
  | nil => exact h
  | cons u us ih =>
    have hmerged : (d.apply u).2.store.Left := by
      rw [store_apply]
      exact h.written (.merge (hus u List.mem_cons_self))
    exact ih hmerged fun v hv => hus v (List.mem_cons_of_mem _ hv)

theorem TrackStep.left (hs : d.TrackStep False as d') (hd : d.Legible) (h : d.store.Left) :
    d'.store.Left := by
  cases hs with
  | aside ha =>
    cases ha with
    | wait | ask | see => exact h
    | ledger op => exact h.written (.ledger op)
    | addTransfer new => exact h.written (.addTransfer new)
    | linkTx hlink => exact h.written (.linkTx hlink)
    | proceed a _ => exact h.proceed d.options.policy a
  | submit hu =>
    rw [store_submit]
    exact h
  | apply hu =>
    rw [store_apply]
    exact h.written (.merge (hu.resolve_left id))
  | mergeInbox => exact left_mergeAll (d := { d with inbox := [] }) h hd.proposed
  | waste address => exact h
  | @openPayment p w registry hnew hwaits hw =>
    have hadd : d.store.addPayment p = .ok (d.store.putPayment p) := by
      simp [Store.addPayment, Table.contains, hnew]
    exact h.written (.addPayment hwaits hadd)
  | rewatch hp hopen =>
    unfold watchPayment
    rw [store_watch]
    exact h
  | endWatch hw => exact h
  | meddle hf _ => exact hf.elim

theorem left_run (h : d.store.Left) (hd : d.Legible) {op : Op} (hop : op.Reports) :
    (op.run d).store.Left := by
  have hrest : op.SparesWatches → op ≠ .takeJournal → (op.run d).store.Left :=
    fun hspares hjournal => ((trackSteps_run op (.inr hspares) hjournal).always
      (P := fun d => d.store.Left ∧ d.Legible)
      (fun h hs => ⟨hs.left h.2 h.1, h.2.trackStep hs⟩) ⟨h, hd⟩).1
  cases op with
  | submit u | update u =>
    have hu : u.status.InWindow := hop.inWindow
    exact hrest hu (by simp)
  | watch address network observer =>
    show (d.watch address network observer).2.store.Left
    rw [store_watch]
    exact h
  | cancelAddress | cancelHandle | stopWatches | stop | restart | takeJournal => exact h
  | _ => exact hrest trivial (by simp)

theorem left_runOps (h : d.store.Left) (hd : d.Legible) {ops : List Op}
    (hops : ∀ op ∈ ops, op.Reports) : (d.runOps ops).store.Left := by
  induction ops generalizing d with
  | nil => exact h
  | cons op ops ih =>
    have hop : op.Reports := hops op List.mem_cons_self
    exact ih (left_run h hd hop) (hd.run hop) fun o ho => hops o (List.mem_cons_of_mem _ ho)

/-! ### The watches that are begun -/

theorem live_watchAll (h : d.registry.Live) (started : Nat) (ps : List Payment) :
    (d.watchAll started ps).2.registry.Live := by
  induction ps generalizing d started with
  | nil => exact h
  | cons p ps ih =>
    have hnext : (d.watchPayment p).2.registry.Live := by
      unfold watchPayment
      obtain hr | ⟨-, -, hr⟩ :=
        d.registry_watch p.receivingAddress d.options.network (.payment p.id)
      · exact hr ▸ h
      · exact hr ▸ h.insert _
    unfold watchAll
    split
    · rename_i hw
      rw [hw] at hnext
      exact ih hnext _
    · rename_i hw
      rw [hw] at hnext
      exact ih hnext _
    · rename_i hw
      rw [hw] at hnext
      exact hnext

theorem watchAll_of_watched (hs : d.registry.stopped = false) {ps : List Payment}
    (hps : ∀ p ∈ ps, d.registry.isWatching p.receivingAddress = true) (started : Nat) :
    d.watchAll started ps = (.ok started, d) := by
  induction ps with
  | nil => rfl
  | cons p ps ih =>
    unfold watchAll watchPayment
    rw [d.watch_of_watched _ _ hs (hps p List.mem_cons_self)]
    exact ih fun q hq => hps q (List.mem_cons_of_mem _ hq)

theorem watches_later_watch (d : Desk) (delay : Nat) (w : Watch) (σ : Watch.Stage) :
    (d.later delay (.watch w σ)).watches [] = d.watches [] ++ [w] := by
  unfold watches jobs later
  rw [List.nil_append, List.nil_append, List.map_append, List.filterMap_append]
  rfl

theorem watches_watchAll (hs : d.registry.stopped = false) {ps : List Payment}
    (hfree : ∀ p ∈ ps, d.registry.isWatching p.receivingAddress = false)
    (hapart : (ps.map (·.receivingAddress)).Nodup) (started : Nat) :
    ((d.watchAll started ps).2.watches []).map (fun w => (w.address, w.observer)) =
      (d.watches []).map (fun w => (w.address, w.observer)) ++
        ps.map fun p => (p.receivingAddress, Observer.payment p.id) := by
  induction ps generalizing d started with
  | nil => exact (List.append_nil _).symm
  | cons p ps ih =>
    obtain ⟨hother, hrest⟩ := List.nodup_cons.mp hapart
    unfold watchAll watchPayment
    rw [d.watch_of_free _ _ hs (hfree p List.mem_cons_self)]
    simp only
    rw [ih]
    · rw [watches_later_watch, List.map_append, List.append_assoc]
      rfl
    · exact hs
    · intro q hq
      rw [Bool.eq_false_iff]
      intro hwatched
      obtain hsame | hwatched := (Registry.isWatching_insert ..).mp hwatched
      · exact hother (List.mem_map.mpr ⟨q, hq, hsame⟩)
      · rw [hfree q (List.mem_cons_of_mem _ hq)] at hwatched
        cases hwatched
    · exact hrest

/-! ### The tasks that are given -/

theorem tasksOn_scheduleAll (d : Desk) (ts : List Transfer) (t : Nat) :
    (tasksOn t (ts.foldl (fun d r => d.schedule r.id) d).tasks).map
        (fun task => (task.due, task.job)) =
      (tasksOn t d.tasks).map (fun task => (task.due, task.job)) ++
        List.replicate (ts.countP (·.id == t)) (d.now, .settle (.start t)) := by
  induction ts generalizing d with
  | nil => exact (List.append_nil _).symm
  | cons r ts ih =>
    have htasks : (d.schedule r.id).tasks = d.tasks ++ [⟨d.now, d.ticket, .settle (.start r.id)⟩] :=
      rfl
    rw [List.foldl_cons, ih, htasks, tasksOn_append]
    by_cases hr : r.id = t
    · subst hr
      rw [List.countP_cons_of_pos (by simp), List.replicate_succ, tasksOn_one rfl, List.map_append,
        List.append_assoc]
      rfl
    · have hother : ∀ task ∈ [(⟨d.now, d.ticket, .settle (.start r.id)⟩ : Task)],
          task.job.on? ≠ some t := by
        simpa [Job.on?, Attempt.start] using hr
      rw [List.countP_cons_of_neg (by simpa using hr), tasksOn_of_none hother, List.append_nil]
      rfl

theorem watches_scheduleAll (d : Desk) (ts : List Transfer) :
    (ts.foldl (fun d r => d.schedule r.id) d).watches [] = d.watches [] := by
  induction ts generalizing d with
  | nil => rfl
  | cons r ts ih =>
    rw [List.foldl_cons, ih]
    unfold schedule later watches jobs
    rw [List.map_append, ← List.append_assoc, List.filterMap_append]
    exact List.append_nil _

/-! ### Taking up -/

theorem watches_resume (h : d.store.Legible) (hs : d.registry.stopped = false) :
    d.resume.2.watches [] = (d.watchAll 0 d.store.openPayments).2.watches [] := by
  rw [resume_eq h.readable hs]
  exact watches_scheduleAll _ _

theorem tasksOn_resume (h : d.store.Legible) (hsound : d.store.Sound)
    (hs : d.registry.stopped = false) (t : Nat) :
    (tasksOn t d.resume.2.tasks).map (fun task => (task.due, task.job)) =
      (tasksOn t d.tasks).map (fun task => (task.due, task.job)) ++
        if (d.store.transfers.get? t).any (!·.isProcessed) then [(d.now, .settle (.start t))]
        else [] := by
  have honce : AtOnce (fun _ => False) d (d.watchAll 0 d.store.openPayments).2 :=
    atOnce_watchAll d 0 _
  have hstore : (d.watchAll 0 d.store.openPayments).2.store = d.store := store_watchAll d 0 _
  rw [resume_eq h.readable hs]
  unfold resumeTransfers
  simp only
  rw [tasksOn_scheduleAll, honce.tasksOn_eq nofun, honce.now, hstore, hsound.countP_unprocessed]
  split <;> rfl

theorem resume_of_watched (h : d.store.Legible) (hs : d.registry.stopped = false)
    (hwatched : ∀ p ∈ d.store.openPayments, d.registry.isWatching p.receivingAddress = true) :
    d.resumeWatches = (.ok 0, d) ∧ d.resume = (.ok (), d.resumeTransfers.2) := by
  have hall := watchAll_of_watched hs hwatched 0
  exact ⟨(resumeWatches_eq h.readable).trans hall, by rw [resume_eq h.readable hs, hall]⟩

/-- **What is open is taken up, and nothing else.** Whatever a desk is asked for
from its start, and also in the middle of merging, it leaves a store behind that can
be reached by single transactions. A desk that opens on any store reached so and
takes up the open work succeeds and writes nothing. Watched are the addresses of the
payments whose status does not end watches, and if these differ, every such payment
has a watch that tells of it; every unprocessed transfer has one task, which is due
at once, and no other transfer has any. A second time it succeeds again, begins no
watch and writes nothing. -/
theorem open_work_taken_up :
    (∀ (options : Options) (ops : List Op), (∀ op ∈ ops, op.Reports) →
      ∀ us : List Update, (∀ u ∈ us, u.Reported) →
        (((start options).runOps ops).mergeAll us).store.Left) ∧
    ∀ d : Desk, d.store.Left → d.registry = .empty → d.tasks = [] →
      let q := d.resume
      q.1 = .ok () ∧ q.2.store = d.store ∧
      (∀ address, (∃ id, q.2.registry.Active address id) ↔
        ∃ id p, d.store.payments.get? id = some p ∧ p.receivingAddress = address ∧
          p.status.endsWatch = false) ∧
      ((d.store.openPayments.map (·.receivingAddress)).Nodup →
        (q.2.watches []).map (fun w => (w.address, w.observer)) =
          d.store.openPayments.map fun p => (p.receivingAddress, .payment p.id)) ∧
      (∀ t, (tasksOn t q.2.tasks).map (fun task => (task.due, task.job)) =
        if (d.store.transfers.get? t).any (!·.isProcessed) then [(d.now, .settle (.start t))]
        else []) ∧
      q.2.resumeWatches.1 = .ok 0 ∧ q.2.resume.1 = .ok () ∧
        q.2.resume.2.registry = q.2.registry ∧ q.2.resume.2.watches [] = q.2.watches [] ∧
        q.2.resume.2.store = d.store := by
  refine ⟨fun options ops hops us hus => ?_, fun d hleft hregistry htasks => ?_⟩
  · exact left_mergeAll (left_runOps .empty (.start options) hops) fun u hu => (hus u hu).inWindow
  intro q
  have hread : d.store.Legible := hleft.legible
  have hlive : d.registry.Live := hregistry ▸ Registry.live_empty
  have hfree : ∀ address, d.registry.isWatching address = false := fun address => by
    rw [hregistry]
    rfl
  have hstore : q.2.store = d.store := store_resume d
  have hwatching : ∀ address, q.2.registry.isWatching address = true ↔ d.store.Awaits address :=
    fun address => by
      rw [isWatching_resume hread.readable hlive.running, hfree]
      simp
  have hlive' : q.2.registry.Live := by
    rw [registry_resume hread.readable hlive.running]
    exact live_watchAll hlive 0 _
  have hanswer : q.1 = .ok () := congrArg Prod.fst (resume_eq hread.readable hlive.running)
  refine ⟨hanswer, hstore, fun address => ?_, fun hapart => ?_, fun t => ?_, ?_⟩
  · rw [← hlive'.isWatching_iff_active]
    exact hwatching address
  · rw [watches_resume hread hlive.running,
      watches_watchAll hlive.running (fun p _ => hfree _) hapart]
    simp [watches, jobs, htasks]
  · rw [tasksOn_resume hread hleft.sound hlive.running, htasks]
    rfl
  · have hread' : q.2.store.Legible := hstore ▸ hread
    have hwatched : ∀ p ∈ q.2.store.openPayments,
        q.2.registry.isWatching p.receivingAddress = true := by
      intro p hp
      rw [hstore] at hp
      exact (hwatching _).mpr (Store.awaits_iff.mpr ⟨p, hp, rfl⟩)
    obtain ⟨hnone, hagain⟩ := resume_of_watched hread' hlive'.running hwatched
    rw [hnone, hagain]
    exact ⟨rfl, rfl, registry_scheduleAll _ _, watches_scheduleAll _ _,
      (store_resumeTransfers q.2).trans hstore⟩

/-- Two payments are opened, one of them is seen confirmed, and a transfer is
stored. -/
def openOfEach : List Op :=
  [.script { Node.Script.empty with addresses := ["a", "b"] },
    .createPayment "p" anyRequest, .createPayment "q" anyRequest,
    .update (.ofSighting "p" (.of World.firstTx 7)),
    .createWallet 1 "BTC" (some "c") false, .createWallet 2 "BTC" (some "d") false,
    .setBalance 1 100,
    .createTransfer {
      source := 1, amount := 25, sender := 1, receiverAddress := "d", priceCurrency := "BTC"
      payCurrency := "BTC", comment := "", linkedTx := none }]

/-- After a restart the other payment is watched, and the transfer has a task. -/
theorem open_work_taken_up_ofEach :
    let q := ((start (ofStore .empty).options).runOps openOfEach).restart.resume
    q.1 = .ok () ∧ (q.2.watches []).map (fun w => (w.address, w.observer)) = [("b", .payment "q")] ∧
      (tasksOn 1 q.2.tasks).map (fun task => (task.due, task.job)) = [(0, .settle (.start 1))] ∧
      q.2.resumeWatches.1 = .ok 0 := by
  intro q
  obtain ⟨hreached, htaken⟩ := open_work_taken_up
  have hops : ∀ op ∈ openOfEach, op.Reports := by
    simp only [openOfEach, List.forall_mem_cons, List.not_mem_nil, false_imp_iff, implies_true,
      and_true]
    exact ⟨trivial, trivial, trivial, .sighting .., trivial, trivial, trivial, trivial⟩
  have hleft := hreached (ofStore .empty).options openOfEach hops [] (by simp)
  obtain ⟨hanswer, -, -, hwatches, htasks, hagain, -⟩ :=
    htaken ((start (ofStore .empty).options).runOps openOfEach).restart hleft rfl rfl
  exact ⟨hanswer, (hwatches (by decide +kernel)).trans (by decide +kernel), htasks 1, hagain⟩

end Desk
end Clearing

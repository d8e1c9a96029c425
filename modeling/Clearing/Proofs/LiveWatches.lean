import Clearing.Proofs.Registrations
import Clearing.Proofs.JobSteps
import Mathlib.Data.List.Perm.Subperm

/-!
# One live watch at an address

A watch that is cancelled goes on until it looks at that the next time, so the
old and the new watch of an address overlap. The registry is told together with
the watches that have begun and not ended, and they may be entered, cancelled
and ended in any order. What is kept is that the entry of an address bears the
number of each watch there that is not cancelled. Numbers are given out once,
so there is one such watch at most, and the end of another takes out no entry
of its.
-/

namespace Clearing

/-- Takes a new watch of an address that is not watched, by a call that has seen
the registry running; it may have stopped since. -/
def Registry.enter (r : Registry) (address : String) (network : Network) (observer : Observer) :
    Except WatchFault (Watch × Registry) :=
  if r.isWatching address then .error (.alreadyWatched address)
  else
    .ok ({ id := r.nextId, address, network, observer },
      { r with entries := r.entries.insert address r.nextId, nextId := r.nextId + 1 })

theorem Registry.register_eq_enter (r : Registry) (address : String) (network : Network)
    (observer : Observer) :
    r.register address network observer =
      if r.stopped then .error .stopped else r.enter address network observer := rfl

theorem Registry.enter_eq_ok {r r' : Registry} {address : String} {network : Network}
    {observer : Observer} {w : Watch} :
    r.enter address network observer = .ok (w, r') ↔
      r.entries.get? address = none ∧
        w = { id := r.nextId, address, network, observer } ∧
        r' = { r with entries := r.entries.insert address r.nextId, nextId := r.nextId + 1 } := by
  unfold enter isWatching Table.contains
  cases r.entries.get? address with
  | some id => simp
  | none =>
    simp only [Option.isSome_none, Bool.false_eq_true, if_false, Except.ok.injEq, Prod.mk.injEq,
      true_and]
    exact ⟨fun h => ⟨h.1.symm, h.2.symm⟩, fun h => ⟨h.1.symm, h.2.symm⟩⟩

/-- A registry with the watches that have begun and not ended. -/
structure Crew where
  registry : Registry
  out : List Watch

namespace Crew

def empty : Crew := ⟨.empty, []⟩

inductive Move
  | watch (address : String) (network : Network) (observer : Observer)
  | cancelAddress (address : String)
  | cancelHandle (id : Nat)
  | stop
  | clear
  | exit (w : Watch)

def step (c : Crew) : Move → Crew
  | .watch address network observer =>
    match c.registry.enter address network observer with
    | .ok (w, registry) => ⟨registry, w :: c.out⟩
    | .error _ => c
  | .cancelAddress address => { c with registry := (c.registry.cancel address).2 }
  | .cancelHandle id => { c with registry := c.registry.cancelWatch id }
  | .stop => { c with registry := c.registry.stop }
  | .clear =>
    if c.registry.stopped then { c with registry := { c.registry with entries := .empty } } else c
  | .exit w => if w ∈ c.out then ⟨c.registry.release w, c.out.erase w⟩ else c

def run (c : Crew) (moves : List Move) : Crew := moves.foldl step c

/-- The watches are ended for good by a stop and the forgetting of the entries. -/
theorem run_shutdown (c : Crew) :
    c.run [.stop, .clear] = { c with registry := c.registry.shutdown } := rfl

/-- The watches at an address that are not cancelled. -/
def live (c : Crew) (address : String) : List Watch :=
  c.out.filter fun w => w.address == address && !c.registry.isCancelled w.id

/-- The numbers of the watches were given out once each, and a watch that is not
cancelled has the entry of its address. -/
structure Entered (c : Crew) : Prop where
  numbered : c.registry.Numbered
  apart : c.out.Pairwise fun w v => w.id ≠ v.id
  begun : ∀ w ∈ c.out, w.id < c.registry.nextId
  entered : ∀ w ∈ c.out, c.registry.isCancelled w.id = false →
    c.registry.entries.get? w.address = some w.id

namespace Entered

variable {c : Crew} {r r' : Registry} {ws ws' : List Watch}

theorem empty : Crew.empty.Entered where
  numbered := Registry.numbered_empty
  apart := .nil
  begun w hw := by cases hw
  entered w hw := by cases hw

theorem subperm (h : Entered ⟨r, ws⟩) (hsub : ws'.Subperm ws) : Entered ⟨r, ws'⟩ where
  numbered := h.numbered
  apart := by
    obtain ⟨us, hperm, hsub⟩ := hsub
    exact (hperm.pairwise_iff fun hne => hne.symm).mp (h.apart.sublist hsub)
  begun w hw := h.begun w (hsub.subset hw)
  entered w hw := h.entered w (hsub.subset hw)

theorem of_registry (h : Entered ⟨r, ws⟩) (hnumbered : r'.Numbered) (hnext : r'.nextId = r.nextId)
    (hentered : ∀ w ∈ ws, r'.isCancelled w.id = false → r.isCancelled w.id = false ∧
      r'.entries.get? w.address = r.entries.get? w.address) : Entered ⟨r', ws⟩ where
  numbered := hnumbered
  apart := h.apart
  begun w hw := hnext ▸ h.begun w hw
  entered w hw hlive := by
    obtain ⟨hlive', hsame⟩ := hentered w hw hlive
    exact hsame.trans (h.entered w hw hlive')

theorem enter (h : Entered ⟨r, ws⟩) {address : String} {network : Network} {observer : Observer}
    {w : Watch} (hw : r.enter address network observer = .ok (w, r')) :
    Entered ⟨r', w :: ws⟩ := by
  obtain ⟨hfree, rfl, rfl⟩ := Registry.enter_eq_ok.mp hw
  refine ⟨h.numbered.insert address, ?_, fun v hv => ?_, fun v hv hlive => ?_⟩
  · exact List.pairwise_cons.mpr ⟨fun v hv => (Nat.ne_of_lt (h.begun v hv)).symm, h.apart⟩
  · rcases List.mem_cons.mp hv with rfl | hv
    · exact Nat.lt_succ_self _
    · exact Nat.lt_succ_of_lt (h.begun v hv)
  · show (r.entries.insert address r.nextId).get? v.address = some v.id
    rw [Table.get?_insert]
    rcases List.mem_cons.mp hv with rfl | hv
    · exact if_pos rfl
    · have hentry : r.entries.get? v.address = some v.id := h.entered v hv hlive
      rw [if_neg]
      · exact hentry
      · intro haddress
        rw [haddress, hfree] at hentry
        cases hentry

theorem cancelAddress (h : Entered ⟨r, ws⟩) (address : String) :
    Entered ⟨(r.cancel address).2, ws⟩ := by
  refine h.of_registry (h.numbered.cancel address) (Registry.nextId_cancel ..) fun w hw hlive => ?_
  rw [Registry.isCancelled_cancel, Bool.or_eq_false_iff, beq_eq_false_iff_ne] at hlive
  obtain ⟨hlive, hother⟩ := hlive
  refine ⟨hlive, ?_⟩
  rw [Registry.get?_cancel, if_neg]
  intro haddress
  exact hother (haddress ▸ h.entered w hw hlive)

theorem cancelHandle (h : Entered ⟨r, ws⟩) (id : Nat) : Entered ⟨r.cancelWatch id, ws⟩ := by
  refine h.of_registry (h.numbered.of_subset (fun hid => hid) rfl) rfl fun w _ hlive => ⟨?_, rfl⟩
  replace hlive : (r.stopped || (id :: r.cancelled).contains w.id) = false := hlive
  rw [List.contains_cons, Bool.or_eq_false_iff, Bool.or_eq_false_iff] at hlive
  exact Bool.or_eq_false_iff.mpr ⟨hlive.1, hlive.2.2⟩

theorem of_stopped (h : Entered ⟨r, ws⟩) (hnumbered : r'.Numbered) (hnext : r'.nextId = r.nextId)
    (hstopped : r'.stopped = true) : Entered ⟨r', ws⟩ := by
  refine h.of_registry hnumbered hnext fun w _ hlive => ?_
  unfold Registry.isCancelled at hlive
  rw [hstopped] at hlive
  cases hlive

theorem stop (h : Entered ⟨r, ws⟩) : Entered ⟨r.stop, ws⟩ :=
  h.of_stopped (h.numbered.of_subset (fun hid => hid) rfl) rfl rfl

theorem shutdown (h : Entered ⟨r, ws⟩) : Entered ⟨r.shutdown, ws⟩ :=
  h.of_stopped (h.numbered.of_subset (fun hid => by cases hid) rfl) rfl rfl

theorem exit (h : Entered ⟨r, ws⟩) {w : Watch} (hsub : (w :: ws').Subperm ws) :
    Entered ⟨r.release w, ws'⟩ := by
  have hboth : Entered ⟨r, w :: ws'⟩ := h.subperm hsub
  have hne : ∀ v ∈ ws', v.id ≠ w.id := fun v hv =>
    ((List.pairwise_cons.mp hboth.apart).1 v hv).symm
  have hcancelled : ∀ id, (r.release w).isCancelled id = r.isCancelled id := by
    intro id
    unfold Registry.release
    split <;> rfl
  refine ⟨h.numbered.release w, (List.pairwise_cons.mp hboth.apart).2, fun v hv => ?_,
    fun v hv hlive => ?_⟩
  · show v.id < (r.release w).nextId
    rw [Registry.nextId_release]
    exact hboth.begun v (List.mem_cons_of_mem _ hv)
  · replace hlive : (r.release w).isCancelled v.id = false := hlive
    rw [hcancelled] at hlive
    exact Registry.get?_release_of_ne (hboth.entered v (List.mem_cons_of_mem _ hv) hlive) (hne v hv)

/-! ### Every move -/

theorem move (h : c.Entered) (m : Move) : (c.step m).Entered := by
  cases m with
  | watch address network observer =>
    unfold step
    simp only
    split
    · rename_i hw
      exact h.enter hw
    · exact h
  | cancelAddress address => exact h.cancelAddress address
  | cancelHandle id => exact h.cancelHandle id
  | stop => exact h.stop
  | clear =>
    unfold step
    simp only
    split
    · rename_i hstopped
      exact h.of_stopped (h.numbered.of_subset (fun hid => by cases hid) rfl) rfl hstopped
    · exact h
  | exit w =>
    unfold step
    simp only
    split
    · rename_i hw
      exact h.exit (List.perm_cons_erase hw).symm.subperm
    · exact h

theorem run (h : c.Entered) (moves : List Move) : (c.run moves).Entered := by
  induction moves generalizing c with
  | nil => exact h
  | cons m moves ih => exact ih (h.move m)

theorem entry_of_live (h : c.Entered) {address : String} {w : Watch}
    (hw : w ∈ c.live address) : c.registry.entries.get? address = some w.id := by
  obtain ⟨hmem, hlive⟩ := List.mem_filter.mp hw
  rw [Bool.and_eq_true, beq_iff_eq, Bool.not_eq_true'] at hlive
  rw [← hlive.1]
  exact h.entered w hmem hlive.2

theorem length_live (h : c.Entered) (address : String) : (c.live address).length ≤ 1 := by
  have hapart : (c.live address).Pairwise fun w v => w.id ≠ v.id := h.apart.filter _
  have hentry : ∀ w ∈ c.live address, c.registry.entries.get? address = some w.id :=
    fun w hw => h.entry_of_live hw
  match hlist : c.live address with
  | [] => exact Nat.zero_le 1
  | [_] => exact Nat.le_refl 1
  | w :: v :: rest =>
    -- two live watches would have the one entry, so the same number
    rw [hlist] at hapart hentry
    have hw := hentry w List.mem_cons_self
    have hv := hentry v (List.mem_cons_of_mem _ List.mem_cons_self)
    rw [hw] at hv
    exact absurd (Option.some.inj hv) ((List.pairwise_cons.mp hapart).1 v List.mem_cons_self)

end Entered
end Crew

namespace Desk

variable {d d' : Desk} {hand hand' : List Job}

/-- The watches of a desk that have begun and not ended, those in hand among
them. -/
def watches (d : Desk) (hand : List Job) : List Watch := (d.jobs hand).filterMap Job.watch?

def crew (d : Desk) (hand : List Job) : Crew := ⟨d.registry, d.watches hand⟩

/-! ### What becomes of the watches -/

theorem watches_of_jobs (h : (d'.jobs hand').Subperm (d.jobs hand)) :
    (d'.watches hand').Subperm (d.watches hand) := filterMap_jobs h Job.watch?

theorem watches_cons {job : Job} (h : job.watch? = none) :
    d.watches (job :: hand) = d.watches hand := List.filterMap_cons_none h

theorem watches_rest (d : Desk) (a : Attempt) (hand : List Job) :
    d.watches (a.rest ++ hand) = d.watches hand := by
  have hnone : ∀ job ∈ a.rest, job.watch? = none := fun job hjob => a.watch?_of_mem_rest hjob
  unfold watches jobs
  rw [List.append_assoc, List.filterMap_append, List.filterMap_eq_nil_iff.mpr hnone,
    List.nil_append]

theorem watches_later {job : Job} (h : job.watch? = none) (delay : Nat) :
    ((d.later delay job).watches hand).Perm (d.watches hand) := by
  have hperm : ((d.later delay job).watches hand).Perm (d.watches (job :: hand)) :=
    (jobs_later delay job).filterMap Job.watch?
  rwa [watches_cons h] at hperm

theorem watches_submit (u : Update) : (d.submit u).2.watches hand = d.watches hand := by
  unfold watches
  obtain h | h := @jobs_submit d hand u
  · rw [h]
  · rw [h, List.filterMap_append]
    exact List.append_nil _

theorem watches_congr (h : d'.tasks = d.tasks) : d'.watches hand = d.watches hand := by
  unfold watches jobs
  rw [h]

theorem entered_watch (h : (d.crew hand).Entered) (address : String) (network : Network)
    (observer : Observer) : ((d.watch address network observer).2.crew hand).Entered := by
  unfold watch
  rw [Registry.register_eq_enter]
  cases d.registry.stopped with
  | true => exact h
  | false =>
    cases hw : d.registry.enter address network observer with
    | error fault => exact h
    | ok q =>
      obtain ⟨w, registry⟩ := q
      have hnew : (crew { d with registry } (.watch w .pausing :: hand)).Entered := h.enter hw
      exact hnew.subperm (watches_of_jobs (jobs_later 0 (.watch w .pausing)).subperm)

/-- Whatever a desk does, the watches that are not cancelled have the entries of
their addresses. -/
theorem entered_jobStep (h : (d.crew hand).Entered) (hs : d.JobStep hand d' hand') :
    (d'.crew hand').Entered := by
  have dropped : ∀ {job : Job}, job.watch? = none → ∀ {d : Desk} {hand : List Job},
      (d.crew (job :: hand)).Entered → (d.crew hand).Entered := by
    intro job hjob d hand h
    unfold crew at h
    rwa [watches_cons hjob] at h
  cases hs with
  | wait | call | see | takeJournal | clearInbox | payments | ledger | addTransfer | linkTx =>
    exact h
  | take now ht => exact h.subperm (watches_of_jobs (jobs_take now ht))
  | sort hperm => exact h.subperm (watches_of_jobs (hperm.append_right _).symm.subperm)
  | drop hjob => exact dropped hjob h
  | later delay job => exact h.subperm (watches_of_jobs (jobs_later delay job).subperm)
  | submit u =>
    unfold crew
    rw [registry_submit, watches_submit]
    exact h
  | apply u =>
    unfold crew
    rw [watches_congr (tasks_apply d u), registry_apply]
    split
    · split
      · exact h.cancelAddress _
      · exact h
    · exact h
  | watch address network observer =>
    exact entered_watch h address network observer
  | goOn τ => exact h
  | endWatch hw => exact h.exit (.refl _)
  | cancelAddress address => exact h.cancelAddress address
  | cancelHandle w => exact h.cancelHandle w.id
  | stopWatches => exact h.shutdown
  | stop => exact h.stop
  | restart => exact Crew.Entered.empty
  | schedule transfer => exact h.subperm (watches_later rfl 0).subperm
  | attempt transfer =>
    unfold crew
    rw [watches_cons rfl]
    exact h
  | begin hjob =>
    unfold crew
    rw [watches_rest]
    exact dropped (Job.watch?_of_begins hjob) h
  | answer ha depth =>
    unfold crew
    rw [watches_rest]
    exact dropped rfl h

theorem entered_runOps (options : Options) {ops : List Op} (hops : (start options).OwnOps ops) :
    (((start options).runOps ops).crew []).Entered :=
  (jobSteps_runOps hops).invariant (P := fun d hand => (d.crew hand).Entered)
    (fun h hs => entered_jobStep h hs) Crew.Entered.empty

/-- **One live watch at an address.** Whatever is asked of a desk from its start,
and whatever then becomes of its watches by themselves, in any order: one watch at
an address at most has begun, has not ended and is not cancelled; the entry of the
address bears its number; and a watch that ends takes out no entry with another
number. -/
theorem live_watch_unique (options : Options) (ops : List Op)
    (hops : (start options).OwnOps ops) (moves : List Crew.Move) :
    let c := (((start options).runOps ops).crew []).run moves
    (∀ address, (c.live address).length ≤ 1) ∧
    (∀ address, ∀ w ∈ c.live address, c.registry.entries.get? address = some w.id ∧
      c.registry.isWatching address = true) ∧
    ∀ w ∈ c.out, ∀ address id, c.registry.entries.get? address = some id → id ≠ w.id →
      (c.step (.exit w)).registry.entries.get? address = some id := by
  intro c
  have h : c.Entered := (entered_runOps options hops).run moves
  refine ⟨h.length_live, fun address w hw => ?_, fun w hw address id hid hne => ?_⟩
  · have hentry := h.entry_of_live hw
    exact ⟨hentry, Registry.isWatching_iff.mpr ⟨w.id, hentry⟩⟩
  · unfold Crew.step
    simp only
    rw [if_pos hw]
    exact Registry.get?_release_of_ne hid hne

/-- An address is watched, given up and watched anew before the first watch has
looked at that; then the first one ends. -/
def watchedAnew : List Op :=
  [.watch "a" .testnet (.journal "old"), .cancelAddress "a", .watch "a" .testnet (.journal "new")]

theorem live_watch_unique_anew :
    let c := (((start (ofStore .empty).options).runOps watchedAnew).crew []).run
      [.exit { id := 0, address := "a", network := .testnet, observer := .journal "old" }]
    c.live "a" = [{ id := 1, address := "a", network := .testnet, observer := .journal "new" }] ∧
      c.registry.isWatching "a" = true := by
  intro c
  have hlive : c.live "a" =
      [{ id := 1, address := "a", network := .testnet, observer := .journal "new" }] := by decide
  obtain ⟨-, hentry, -⟩ := live_watch_unique (ofStore .empty).options watchedAnew
    ⟨trivial, trivial, trivial, trivial⟩
    [.exit { id := 0, address := "a", network := .testnet, observer := .journal "old" }]
  exact ⟨hlive, (hentry "a" _ (hlive ▸ List.mem_singleton_self _)).2⟩

end Desk
end Clearing

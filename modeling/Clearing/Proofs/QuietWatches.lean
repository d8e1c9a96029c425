import Clearing.Proofs.LiveWatches
import Clearing.Proofs.Moments
import Mathlib.Data.List.Pairwise

/-!
# A watch that is cancelled goes quiet

From wherever it waits, a watch that is cancelled has one turn left: a watch
that rests is woken at once, one that waits for the node when the node has
answered. What it tells in that turn is the depth that it had asked for, and all
else that was found it lets go. A watch has a number of its own, so nothing that
happens at the desk meanwhile gives it another task.
-/

namespace Clearing

/-- The ways to cancel a watch: at its address, through its handle, or with all
others. -/
def Watch.cuts (w : Watch) : List Desk.Op :=
  [.cancelAddress w.address, .cancelHandle w, .stopWatches, .stop]

def Moment.watch? : Moment → Option Watch
  | .turn t => t.job.watch?
  | _ => none

def Moment.isTurnOf (w : Watch) (m : Moment) : Bool := m.watch? = some w

namespace Desk

variable {own : Job → Prop} {d d' : Desk} {w : Watch} {σ : Watch.Stage} {t : Task}

/-! ### The last turn -/

/-- What a watch that was cancelled still hears: of a page that it has searched
for nothing, and of a depth that it has asked for all. -/
def hearOut (d : Desk) (w : Watch) : Watch.Stage → Desk
  | .pausing => d
  | .searching address =>
    { d with node := (d.node.search address 0 d.options.timing.pageSize).2 }
  | .looking tx _ => d.answerLookup w tx

theorem goThrough_of_cancelled (hw : d.isCancelled w = true) (page : List String) :
    d.goThrough w page = d.endWatch w := by
  cases page with
  | nil =>
    unfold goThrough pauseWatch
    rw [if_pos hw]
  | cons tx rest =>
    unfold goThrough
    rw [hw]
    rfl

theorem isCancelled_answerLookup (hw : d.isCancelled w = true) (tx : String) :
    (d.answerLookup w tx).isCancelled w = true := by
  have honce : AtOnce NoWatch d (d.answerLookup w tx) := atOnce_answerLookup d w tx
  exact honce.cancelled hw

/-- From every stage the watch hears out what it had asked for, and ends. -/
theorem resumeWatch_of_cancelled (hw : d.isCancelled w = true) (σ : Watch.Stage) :
    d.resumeWatch w σ = (d.hearOut w σ).endWatch w := by
  cases σ with
  | pausing => exact if_pos hw
  | searching address =>
    show d.hearSearch w address =
      { d with node := (d.node.search address 0 d.options.timing.pageSize).2 }.endWatch w
    unfold hearSearch
    split
    · rename_i node hsearch
      rw [hsearch]
      exact if_pos hw
    · rename_i page node hsearch
      rw [hsearch]
      exact goThrough_of_cancelled (d := { d with node }) hw page
  | looking tx rest => exact goThrough_of_cancelled (isCancelled_answerLookup hw tx) rest

theorem answerLookup_of_heard {tx : String} {seen : Sighting} (w : Watch)
    (h : Watch.heard tx (d.node.depth tx) = some seen) : d.answerLookup w tx = d.report w seen := by
  unfold answerLookup
  rw [h]

theorem answerLookup_of_unheard {tx : String} (w : Watch)
    (h : Watch.heard tx (d.node.depth tx) = none) : d.answerLookup w tx = d := by
  unfold answerLookup
  rw [h]

theorem calls_report (d : Desk) (w : Watch) (seen : Sighting) :
    (d.report w seen).journal.calls = d.journal.calls := by
  unfold report submit
  split
  · split
    · rfl
    · simp only
      split <;> rfl
  · rfl

theorem get?_endWatch (d : Desk) (w : Watch) :
    (d.endWatch w).registry.entries.get? w.address ≠ some w.id := by
  show (d.registry.release w).entries.get? w.address ≠ some w.id
  unfold Registry.release
  split
  · rw [Table.get?_erase, if_pos rfl]
    exact nofun
  · assumption

theorem AtOnce.mem_of_watch (h : AtOnce own d d') (hown : ∀ job, own job → job.watch? ≠ some w)
    (hbegun : w.id < d.registry.nextId) (ht : t ∈ d'.tasks) (hwatch : t.job.watch? = some w) :
    t ∈ d.tasks := by
  obtain ⟨added, htasks, hadded⟩ := h.tasks
  rw [htasks] at ht
  rcases List.mem_append.mp ht with ht | ht
  · exact ht
  · obtain hmerge | hmine | ⟨v, σ, hjob, hnew⟩ := hadded t ht
    · rw [hmerge] at hwatch
      cases hwatch
    · exact absurd hwatch (hown _ hmine)
    · rw [hjob] at hwatch
      rw [Option.some.inj hwatch] at hnew
      omega

/-- A watch was cancelled and has begun, and its tasks are those given. -/
structure Hushed (w : Watch) (left : Option Task) (d : Desk) : Prop where
  cancelled : d.isCancelled w = true
  begun : w.id < d.registry.nextId
  tasks : ∀ t ∈ d.tasks, t.job.watch? = some w → left = some t

/-- The turn of a task is the last one of its watch. -/
structure LastTurn (d : Desk) (t : Task) (w : Watch) (σ : Watch.Stage) : Prop where
  /-- A watch that rests is woken at once; one that waits for the node has its
  turn when that has answered. -/
  due : d.dueAt t = if σ = .pausing then min t.due d.now else t.due
  calls : (d.turn t).journal.calls = d.journal.calls
  /-- Nothing is told, or the one depth that had been asked for. -/
  tells : ((d.turn t).inbox = d.inbox ∧ (d.turn t).journal = d.journal) ∨
    ∃ tx rest seen, σ = .looking tx rest ∧ Watch.heard tx (d.node.depth tx) = some seen ∧
      d.turn t = ((d.wake t).report w seen).endWatch w
  ends : ∀ t' ∈ (d.turn t).tasks, t'.job.watch? ≠ some w
  leaves : (d.turn t).registry.entries.get? w.address ≠ some w.id

namespace Hushed

variable {left : Option Task}

theorem atOnce (h : d.Hushed w left) (hd : AtOnce own d d')
    (hown : ∀ job, own job → job.watch? ≠ some w) : d'.Hushed w left where
  cancelled := hd.cancelled h.cancelled
  begun := Nat.lt_of_lt_of_le h.begun hd.nextId
  tasks t ht hwatch := h.tasks t (hd.mem_of_watch hown h.begun ht hwatch) hwatch

theorem noWatch (h : d.Hushed w left) (hd : AtOnce NoWatch d d') : d'.Hushed w left :=
  h.atOnce hd fun job hjob => by
    rw [hjob]
    exact nofun

theorem wake (h : d.Hushed w left) (t : Task) : (d.wake t).Hushed w left where
  cancelled := h.cancelled
  begun := h.begun
  tasks t' ht' := h.tasks t' (List.mem_filter.mp ht').1

theorem wake_own (h : d.Hushed w left) (ht : t ∈ d.tasks) (hwatch : t.job.watch? = some w) :
    (d.wake t).Hushed w none where
  cancelled := h.cancelled
  begun := h.begun
  tasks t' ht' hwatch' := by
    obtain ⟨hmem, hticket⟩ := List.mem_filter.mp ht'
    have hsame : t = t' :=
      Option.some.inj ((h.tasks t ht hwatch).symm.trans (h.tasks t' hmem hwatch'))
    rw [hsame] at hticket
    simp at hticket

theorem turn_own (h : d.Hushed w left) (ht : t ∈ d.tasks) (hjob : t.job = .watch w σ) :
    d.turn t = ((d.wake t).hearOut w σ).endWatch w ∧ (d.turn t).Hushed w none := by
  have hwatch : t.job.watch? = some w := by rw [hjob]; rfl
  have hwake := h.wake_own ht hwatch
  have hturn : d.turn t = ((d.wake t).hearOut w σ).endWatch w := by
    rw [turn_eq, hjob]
    exact resumeWatch_of_cancelled hwake.cancelled σ
  have hhear : AtOnce NoWatch (d.wake t) ((d.wake t).hearOut w σ) := by
    cases σ with
    | pausing => exact .refl _
    | searching address => exact .still rfl rfl rfl rfl
    | looking tx rest => exact atOnce_answerLookup _ w tx
  rw [hturn]
  exact ⟨rfl, hwake.noWatch (hhear.trans (atOnce_endWatch _ w))⟩

theorem lastTurn (h : d.Hushed w left) (ht : t ∈ d.tasks) (hjob : t.job = .watch w σ) :
    d.LastTurn t w σ := by
  obtain ⟨hturn, hgone⟩ := h.turn_own ht hjob
  refine ⟨?_, ?_, ?_, fun t' ht' hwatch => ?_, ?_⟩
  · unfold dueAt isInterrupted
    rw [hjob]
    cases σ with
    | pausing => simp [h.cancelled]
    | searching address => simp
    | looking tx rest => simp
  · rw [hturn]
    cases σ with
    | pausing => rfl
    | searching address => rfl
    | looking tx rest =>
      show ((d.wake t).answerLookup w tx).journal.calls = _
      unfold answerLookup
      split
      · exact calls_report ..
      · rfl
  · rw [hturn]
    cases σ with
    | pausing => exact .inl ⟨rfl, rfl⟩
    | searching address => exact .inl ⟨rfl, rfl⟩
    | looking tx rest =>
      have hanswer : (d.wake t).hearOut w (.looking tx rest) = (d.wake t).answerLookup w tx := rfl
      rw [hanswer]
      cases hseen : Watch.heard tx (d.node.depth tx) with
      | none =>
        rw [answerLookup_of_unheard (d := d.wake t) w hseen]
        exact .inl ⟨rfl, rfl⟩
      | some seen =>
        rw [answerLookup_of_heard (d := d.wake t) w hseen]
        exact .inr ⟨tx, rest, seen, rfl, hseen, rfl⟩
  · cases hgone.tasks t' ht' hwatch
  · rw [hturn]
    exact get?_endWatch _ w

/-! ### From moment to moment -/

theorem moment (h : d.Hushed w left) {m : Moment} (hm : m.Own d) (hother : m.isTurnOf w = false)
    (hopen : m ≠ .answer .restart) : (m.run d).Hushed w left := by
  cases m with
  | turn t =>
    have hne : t.job.watch? ≠ some w := of_decide_eq_false hother
    refine (h.wake t).atOnce (atOnce_runJob _ t.job) fun job hjob => ?_
    rw [hjob]
    exact hne
  | wait now => exact ⟨h.cancelled, h.begun, h.tasks⟩
  | ask tx => exact ⟨h.cancelled, h.begun, h.tasks⟩
  | begin transfer => exact h.noWatch (atOnce_beginAttempt d transfer)
  | hear a => exact h.noWatch (atOnce_hearAttempt d a)
  | answer op => exact h.noWatch (atOnce_answer hm fun hop => hopen (congrArg Moment.answer hop))

/-- The watch has as many turns at most as it has tasks left. -/
theorem run (h : d.Hushed w left) {ms : List Moment} (hms : d.OwnMoments ms)
    (hopen : .answer .restart ∉ ms) :
    ∃ left', (d.runMoments ms).Hushed w left' ∧ (left' = none ∨ left' = left) ∧
      ms.countP (Moment.isTurnOf w) + left'.toList.length ≤ left.toList.length := by
  induction ms generalizing d left with
  | nil => exact ⟨left, h, .inr rfl, by simp⟩
  | cons m ms ih =>
    obtain ⟨hm, hms⟩ := hms
    have hne : m ≠ .answer .restart := fun hm => hopen (hm ▸ List.mem_cons_self)
    have hrest : .answer .restart ∉ ms := fun hmem => hopen (List.mem_cons_of_mem _ hmem)
    by_cases hturn : m.isTurnOf w = true
    · cases m with
      | turn t =>
        have hwatch : t.job.watch? = some w := of_decide_eq_true hturn
        have hleft : left = some t := h.tasks t hm hwatch
        have hgone : (d.turn t).Hushed w none := by
          cases hjob : t.job with
          | watch v σ =>
            rw [hjob] at hwatch
            rw [Option.some.inj hwatch] at hjob
            exact (h.turn_own hm hjob).2
          | merge | settle | retry =>
            rw [hjob] at hwatch
            cases hwatch
        obtain ⟨left', hleft', hnone, hcount⟩ := ih hgone hms hrest
        refine ⟨left', hleft', .inl (hnone.elim id id), ?_⟩
        rw [List.countP_cons_of_pos hturn, hleft]
        simp only [Option.toList_none, List.length_nil, Option.toList_some,
          List.length_singleton] at hcount ⊢
        omega
      | wait | ask | begin | hear | answer => cases hturn
    · have hother : m.isTurnOf w = false := Bool.not_eq_true _ ▸ hturn
      obtain ⟨left', hleft', hsame, hcount⟩ := ih (h.moment hm hother hne) hms hrest
      refine ⟨left', hleft', hsame, ?_⟩
      rw [List.countP_cons_of_neg hturn]
      exact hcount

end Hushed

/-! ### Every run -/

theorem Op.own_of_isPrompt {op : Op} (h : op.isPrompt = true) : op.Own d := by
  cases op with
  | turn => cases h
  | _ => trivial

/-- What every step preserves, and what a job in hand does not touch that takes no
watch on, is preserved from each moment to the next. -/
theorem invariant_moment {P : Desk → List Job → Prop}
    (hstep : ∀ {d hand d' hand'}, P d hand → d.JobStep hand d' hand' → P d' hand')
    (hhand : ∀ {d job}, job.watch? = none → P d [] → P d [job])
    (h : P d []) {m : Moment} (hm : m.Own d) : P (m.run d) [] := by
  have hsteps : ∀ {hand d'}, d.JobSteps hand d' [] → P d hand → P d' [] := fun hs =>
    hs.invariant hstep
  cases m with
  | turn t => exact hsteps (jobSteps_turn d hm) h
  | wait now => exact hstep h (.wait now)
  | ask tx => exact hsteps (jobSteps_noteCall d (.lookup tx)) h
  | begin transfer =>
    have hbegin := @jobSteps_beginAttempt d [] (.retry transfer) transfer rfl
    exact hsteps (hbegin.trans (jobSteps_drop _ fun job hjob => Attempt.watch?_of_mem_rest hjob))
      (hhand rfl h)
  | hear a =>
    have hhear := (@jobSteps_hearAttempt d [] a).trans
      (jobSteps_drop _ fun job hjob => Attempt.watch?_of_mem_rest hjob)
    cases hstage : a.stage with
    | asking tx =>
      rw [Attempt.rest_of_asking hstage] at hhear
      exact hsteps hhear (hhand rfl h)
    | _ =>
      have hasks : a.isAsking = true := hm
      unfold Attempt.isAsking at hasks
      rw [hstage] at hasks
      cases hasks
  | answer op => exact hsteps (jobSteps_run op (Op.own_of_isPrompt hm)) h

theorem entered_moment (h : (d.crew []).Entered) {m : Moment} (hm : m.Own d) :
    ((m.run d).crew []).Entered :=
  invariant_moment (P := fun d hand => (d.crew hand).Entered) (fun h hs => entered_jobStep h hs)
    (fun hjob h => by unfold crew; rw [watches_cons hjob]; exact h) h hm

theorem entered_runMoments (options : Options) {ms : List Moment}
    (hms : (start options).OwnMoments ms) :
    (((start options).runMoments ms).crew []).Entered :=
  hms.invariant (P := fun d => (d.crew []).Entered) (fun _ hm h => entered_moment h hm)
    Crew.Entered.empty

theorem mem_watches (ht : t ∈ d.tasks) (hwatch : t.job.watch? = some w) : w ∈ d.watches [] :=
  List.mem_filterMap.mpr ⟨t.job, List.mem_map_of_mem ht, hwatch⟩

theorem tasks_apart (h : (d.crew []).Entered) : d.tasks.Pairwise fun a b =>
    ∀ v, a.job.watch? = some v → ∀ v', b.job.watch? = some v' → v.id ≠ v'.id := by
  have hpair := h.apart
  unfold crew watches jobs at hpair
  rw [List.nil_append, List.pairwise_filterMap, List.pairwise_map] at hpair
  exact hpair

theorem task_unique (h : (d.crew []).Entered) {t' : Task} (ht : t ∈ d.tasks) (ht' : t' ∈ d.tasks)
    (hwatch : t.job.watch? = some w) (hwatch' : t'.job.watch? = some w) : t = t' := by
  have hsymm : Std.Symm fun a b : Task =>
      ∀ v, a.job.watch? = some v → ∀ v', b.job.watch? = some v' → v.id ≠ v'.id :=
    ⟨fun a b hab v hv v' hv' => (hab v' hv' v hv).symm⟩
  by_contra hne
  exact (tasks_apart h).forall ht ht' hne w hwatch w hwatch' rfl

theorem isCancelled_cut (h : (d.crew []).Entered) (hw : w ∈ d.watches []) {cut : Op}
    (hcut : cut ∈ w.cuts) : (cut.run d).isCancelled w = true := by
  unfold Watch.cuts at hcut
  simp only [List.mem_cons, List.not_mem_nil, or_false] at hcut
  rcases hcut with rfl | rfl | rfl | rfl
  · show (d.registry.cancel w.address).2.isCancelled w.id = true
    rw [Registry.isCancelled_cancel]
    by_cases hlive : d.registry.isCancelled w.id = true
    · rw [hlive, Bool.true_or]
    · have hentry : d.registry.entries.get? w.address = some w.id :=
        h.entered w hw (Bool.not_eq_true _ ▸ hlive)
      simp [hentry]
  · show (d.registry.stopped || (w.id :: d.registry.cancelled).contains w.id) = true
    simp
  · rfl
  · rfl

/-- **A watch that is cancelled goes quiet.** Runs go through moments
(`Desk.passes_runOps`). At any of them let a watch be out, whatever it waits for,
and let it be cancelled at its address, through its handle or with all others.
Whatever happens from then on, as long as the desk is not opened anew: the watch
stays cancelled, and has one more turn at most, that of the task it had. It comes
at once if the watch rests, else when the node has answered; it asks the node for
nothing, it tells nothing but the depth that the watch had asked for, and it is
the end of the watch. -/
theorem quiet_once_cancelled (options : Options) {ms : List Moment}
    (hms : (start options).OwnMoments ms)
    (ht : t ∈ ((start options).runMoments ms).tasks) (hjob : t.job = .watch w σ) {cut : Op}
    (hcut : cut ∈ w.cuts) {ms' : List Moment}
    (hms' : (cut.run ((start options).runMoments ms)).OwnMoments ms')
    (hopen : .answer .restart ∉ ms') :
    let d := (cut.run ((start options).runMoments ms)).runMoments ms'
    d.isCancelled w = true ∧ ms'.countP (Moment.isTurnOf w) ≤ 1 ∧
      ∀ t' ∈ d.tasks, t'.job.watch? = some w → t' = t ∧ d.LastTurn t w σ := by
  intro d
  have hentered := entered_runMoments options hms
  have hwatch : t.job.watch? = some w := by rw [hjob]; rfl
  have hcutOnce : AtOnce NoWatch ((start options).runMoments ms)
      (cut.run ((start options).runMoments ms)) := by
    unfold Watch.cuts at hcut
    simp only [List.mem_cons, List.not_mem_nil, or_false] at hcut
    rcases hcut with rfl | rfl | rfl | rfl <;> exact atOnce_answer rfl nofun
  have hw : w ∈ ((start options).runMoments ms).watches [] := mem_watches ht hwatch
  have hhushed : (cut.run ((start options).runMoments ms)).Hushed w (some t) := {
    cancelled := isCancelled_cut hentered hw hcut
    begun := Nat.lt_of_lt_of_le (hentered.begun w hw) hcutOnce.nextId
    tasks := fun t' ht' hwatch' => by
      have hmem := hcutOnce.mem_of_watch (fun job hjob => by rw [hjob]; exact nofun)
        (hentered.begun w hw) ht' hwatch'
      rw [task_unique hentered ht hmem hwatch hwatch'] }
  obtain ⟨left, hleft, hsame, hcount⟩ := hhushed.run hms' hopen
  refine ⟨hleft.cancelled, ?_, fun t' ht' hwatch' => ?_⟩
  · simp only [Option.toList_some, List.length_singleton] at hcount
    omega
  · have hmem : left = some t' := hleft.tasks t' ht' hwatch'
    obtain rfl : t = t' := by
      rcases hsame with hnone | hsome
      · rw [hnone] at hmem
        cases hmem
      · exact Option.some.inj (hsome.symm.trans hmem)
    exact ⟨rfl, hleft.lastTurn ht' hjob⟩

def pageWatch : Watch :=
  { id := 0, address := "tb1pqqqq4cagmm", network := .testnet, observer := .journal "page" }

/-- It has found two transactions, and asks for the depth of the first; the node
takes a second to answer. -/
def askingForFirst : List Moment :=
  [.answer (.script { Node.Script.empty with
      found := [(pageWatch.address, World.firstTx), (pageWatch.address, World.secondTx)]
      depths := Table.empty.insert World.firstTx 3
      lookupDelay := 1000 }),
    .answer (.watch pageWatch.address .testnet (.journal "page")),
    .turn { due := 0, ticket := 0, job := .watch pageWatch .pausing }]

/-- Cancelled while it waits, it has the turn left in which the answer comes. -/
theorem quiet_once_cancelled_looking :
    let d := ((Op.cancelHandle pageWatch).run
      ((start (ofStore .empty).options).runMoments askingForFirst)).runMoments [.wait 1000]
    let σ := Watch.Stage.looking World.firstTx [World.secondTx]
    let t : Task := { due := 1000, ticket := 1, job := .watch pageWatch σ }
    t ∈ d.tasks ∧ d.LastTurn t pageWatch σ := by
  intro d σ t
  have ht : t ∈ d.tasks := by decide +kernel
  have hms : (start (ofStore .empty).options).OwnMoments askingForFirst := by decide +kernel
  have hmem : t ∈ ((start (ofStore .empty).options).runMoments askingForFirst).tasks := by
    decide +kernel
  have hcut : Op.cancelHandle pageWatch ∈ pageWatch.cuts := by simp [Watch.cuts]
  have hms' : ((Op.cancelHandle pageWatch).run
      ((start (ofStore .empty).options).runMoments askingForFirst)).OwnMoments [.wait 1000] := by
    decide +kernel
  obtain ⟨-, -, hlast⟩ :=
    quiet_once_cancelled (ofStore .empty).options hms hmem rfl hcut hms' (by simp)
  exact ⟨ht, (hlast t ht rfl).2⟩

end Desk
end Clearing

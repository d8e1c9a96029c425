import Clearing.Proofs.WatchTurns
import Mathlib.Data.List.Nodup

/-!
# A poll from rest to rest

Between two turns of a watch anything may happen at the desk, and nothing of it
changes what the watch waits for: its tasks are told apart from all others by
their tickets and by its number. So the turns of a watch follow one another as if
nothing else were there, until the watch is cancelled. From each rest to the next
they make up one poll.
-/

namespace Clearing

namespace Registry

theorem stopped_cancel (r : Registry) (address : String) :
    (r.cancel address).2.stopped = r.stopped := by
  unfold cancel
  split <;> rfl

theorem stopped_release (r : Registry) (w : Watch) : (r.release w).stopped = r.stopped := by
  unfold release
  split <;> rfl

end Registry

namespace Desk

variable {own : Job → Prop} {d d' e : Desk} {w : Watch} {σ : Watch.Stage} {t : Task} {m : Moment}
  {ms : List Moment} {a b : Watch.Account} {due : Nat}

/-! ### Tickets -/

def Ticketed (d : Desk) : Prop := (d.tasks.map Task.ticket ++ [d.ticket]).Pairwise (· < ·)

namespace Ticketed

theorem sublist (h : d.Ticketed) (hsub : d'.tasks.Sublist d.tasks)
    (hticket : d'.ticket = d.ticket) : d'.Ticketed := by
  unfold Ticketed
  rw [hticket]
  exact List.Pairwise.sublist ((hsub.map _).append_right _) h

theorem congr (h : d.Ticketed) (htasks : d'.tasks = d.tasks) (hticket : d'.ticket = d.ticket) :
    d'.Ticketed := h.sublist (by rw [htasks]) hticket

theorem later (h : d.Ticketed) (delay : Nat) (job : Job) : (d.later delay job).Ticketed := by
  have hbelow : ∀ n ∈ d.tasks.map Task.ticket ++ [d.ticket], n < d.ticket + 1 := by
    intro n hn
    rcases List.mem_append.mp hn with hn | hn
    · exact Nat.lt_succ_of_lt ((List.pairwise_append.mp h).2.2 n hn _ List.mem_cons_self)
    · rw [List.mem_singleton.mp hn]
      exact Nat.lt_succ_self _
  unfold Ticketed Desk.later
  rw [List.map_append]
  refine List.pairwise_append.mpr ⟨h, List.pairwise_singleton .., fun n hn k hk => ?_⟩
  rw [List.mem_singleton.mp hk]
  exact hbelow n hn

theorem eq_of_ticket {t' : Task} (h : d.Ticketed) (ht : t ∈ d.tasks) (ht' : t' ∈ d.tasks)
    (heq : t.ticket = t'.ticket) : t = t' := by
  have hnodup : (d.tasks.map Task.ticket).Nodup :=
    (List.pairwise_append.mp h).1.imp fun hlt => Nat.ne_of_lt hlt
  exact List.inj_on_of_nodup_map hnodup ht ht' heq

end Ticketed

def Halts (d : Desk) : Prop := d.stopped = true → d.registry.stopped = true

theorem apply_aside (d : Desk) (u : Update) :
    (d.apply u).2.ticket = d.ticket ∧ (d.apply u).2.stopped = d.stopped := by
  unfold apply
  cases d.store.merge u with
  | error fault => exact ⟨rfl, rfl⟩
  | ok q =>
    obtain ⟨o, store⟩ := q
    cases o with
    | applied p =>
      simp only [announce]
      split <;> exact ⟨rfl, rfl⟩
    | unchanged p => exact ⟨rfl, rfl⟩
    | stale p => exact ⟨rfl, rfl⟩

theorem ticketed_jobStep {hand hand' : List Job} (h : d.Ticketed) (hs : d.JobStep hand d' hand') :
    d'.Ticketed := by
  cases hs with
  | take now ht => exact h.sublist List.filter_sublist rfl
  | later delay job => exact h.later delay job
  | submit u =>
    unfold submit
    split
    · exact h
    · simp only
      split
      · exact h.congr rfl rfl
      · have htaken : Ticketed { d with inbox := d.inbox ++ [u] } := h.congr rfl rfl
        exact htaken.later 0 .merge
  | apply u => exact h.congr (tasks_apply d u) (apply_aside d u).1
  | watch address network observer =>
    unfold watch
    split
    · exact h
    · rename_i w registry _
      have hregistered : Ticketed { d with registry } := h.congr rfl rfl
      exact hregistered.later 0 _
  | schedule transfer => exact h.later 0 _
  | restart => exact List.pairwise_singleton ..
  | _ => exact h.congr rfl rfl

theorem halts_jobStep {hand hand' : List Job} (h : d.Halts) (hs : d.JobStep hand d' hand') :
    d'.Halts := by
  cases hs with
  | submit u =>
    unfold submit
    split
    · exact h
    · simp only
      split <;> exact h
  | apply u =>
    unfold Halts
    rw [(apply_aside d u).2, registry_apply]
    split
    · split
      · rw [Registry.stopped_cancel]
        exact h
      · exact h
    · exact h
  | watch address network observer =>
    unfold watch
    split
    · exact h
    · rename_i w registry hregister
      obtain ⟨-, -, -, rfl⟩ := Registry.register_eq_ok.mp hregister
      exact h
  | cancelAddress address =>
    intro hstopped
    exact (Registry.stopped_cancel ..).trans (h hstopped)
  | endWatch hw =>
    intro hstopped
    exact (Registry.stopped_release ..).trans (h hstopped)
  | stopWatches => exact fun _ => rfl
  | stop => exact fun _ => rfl
  | restart => exact nofun
  | _ => exact h

/-! ### Every run -/

structure Orderly (d : Desk) : Prop where
  ticketed : d.Ticketed
  halts : d.Halts
  entered : (d.crew []).Entered

theorem Orderly.moment (h : d.Orderly) (hm : m.Own d) : (m.run d).Orderly where
  ticketed := invariant_moment (P := fun d _ => d.Ticketed) ticketed_jobStep (fun _ h => h)
    h.ticketed hm
  halts := invariant_moment (P := fun d _ => d.Halts) halts_jobStep (fun _ h => h) h.halts hm
  entered := entered_moment h.entered hm

theorem orderly_runMoments (options : Options) (hms : (start options).OwnMoments ms) :
    ((start options).runMoments ms).Orderly :=
  hms.invariant (P := Orderly) (fun _ hm h => h.moment hm)
    { ticketed := List.pairwise_singleton ..
      halts := nofun
      entered := Crew.Entered.empty }

theorem options_moment (hm : m.Own d) : (m.run d).options = d.options :=
  invariant_moment (P := fun e _ => e.options = d.options)
    (fun h hs => (options_jobStep hs).trans h) (fun _ h => h) rfl hm

theorem options_turn (ht : t ∈ d.tasks) : (d.turn t).options = d.options :=
  options_moment (m := .turn t) ht

theorem isCancelled_moment (hm : m.Own d) (hopen : m ≠ .answer .restart)
    (h : d.isCancelled w = true) : (m.run d).isCancelled w = true := by
  cases m with
  | turn t => exact (atOnce_runJob (d.wake t) t.job).cancelled h
  | wait now => exact h
  | ask tx => exact h
  | begin transfer =>
    have honce : AtOnce NoWatch d (d.beginAttempt transfer).2 := atOnce_beginAttempt d transfer
    exact honce.cancelled h
  | hear a =>
    have honce : AtOnce NoWatch d (d.hearAttempt a).2 := atOnce_hearAttempt d a
    exact honce.cancelled h
  | answer op => exact (atOnce_answer hm fun hop => hopen (congrArg Moment.answer hop)).cancelled h

theorem live_of_runMoments (hms : d.OwnMoments ms) (hopen : .answer .restart ∉ ms)
    (h : (d.runMoments ms).isCancelled w = false) : d.isCancelled w = false := by
  by_contra hcancelled
  have hstays : (d.runMoments ms).isCancelled w = true :=
    hms.invariant (P := fun d => d.isCancelled w = true)
      (fun hmem hm => isCancelled_moment hm fun heq => hopen (heq ▸ hmem))
      (Bool.not_eq_false _ ▸ hcancelled)
  rw [h] at hstays
  cases hstays

/-! ### What a watch waits for -/

theorem mem_waits : (due, σ) ∈ d.waits w ↔ ∃ t ∈ d.tasks, t.due = due ∧ t.job = .watch w σ := by
  unfold waits
  rw [List.mem_filterMap]
  refine exists_congr fun t => and_congr_right fun _ => ⟨fun h => ?_, fun ⟨hdue, hjob⟩ => ?_⟩
  · unfold Task.waitOf at h
    split at h
    · rename_i v τ hjob
      split at h
      · rename_i hv
        cases h
        exact ⟨rfl, hv ▸ hjob⟩
      · cases h
    · cases h
  · rw [Task.waitOf_of_job hjob, hdue]

theorem waits_eq (h : (d.crew []).Entered) (hmem : (due, σ) ∈ d.waits w) :
    d.waits w = [(due, σ)] := by
  have hone : (d.waits w).Pairwise fun _ _ => False :=
    List.pairwise_filterMap.mpr ((tasks_apart h).imp fun hapart _ hx _ hy =>
      hapart w (Task.watch?_of_waitOf hx) w (Task.watch?_of_waitOf hy) rfl)
  generalize d.waits w = l at hone hmem
  match l, hone with
  | [x], _ => rw [List.mem_singleton.mp hmem]
  | _ :: y :: _, hone => exact absurd (List.rel_of_pairwise_cons hone List.mem_cons_self) id

theorem mem_watches_of_waits (h : (due, σ) ∈ d.waits w) : w ∈ d.watches [] := by
  obtain ⟨t, ht, -, hjob⟩ := mem_waits.mp h
  exact mem_watches ht (by rw [hjob]; rfl)

/-- What other jobs do at once adds nothing to the tasks of a watch that has begun. -/
theorem AtOnce.waits_eq (hd : AtOnce own d e) (hown : ∀ job, own job → job.watch? ≠ some w)
    (hbegun : w.id < d.registry.nextId) : e.waits w = d.waits w := by
  obtain ⟨added, htasks, hadded⟩ := hd.tasks
  have hnone : added.filterMap (Task.waitOf w) = [] := by
    refine List.filterMap_eq_nil_iff.mpr fun t ht => Task.waitOf_eq_none ?_
    obtain hmerge | hmine | ⟨v, τ, hjob, hnew⟩ := hadded t ht
    · rw [hmerge]
      exact nofun
    · exact hown _ hmine
    · rw [hjob]
      intro hv
      rw [Option.some.inj hv] at hnew
      omega
  unfold waits
  rw [htasks, List.filterMap_append, hnone, List.append_nil]

theorem waits_wake (h : d.Ticketed) (ht : t ∈ d.tasks) (hother : t.job.watch? ≠ some w) :
    (d.wake t).waits w = d.waits w := by
  unfold waits wake
  rw [List.filterMap_filter]
  refine List.filterMap_congr fun s hs => ?_
  by_cases hticket : s.ticket = t.ticket
  · rw [h.eq_of_ticket hs ht hticket, if_neg (by simp), Task.waitOf_eq_none hother]
  · rw [if_pos (by simpa using hticket)]

theorem waits_wake_own (h : (d.crew []).Entered) (ht : t ∈ d.tasks)
    (hwatch : t.job.watch? = some w) : (d.wake t).waits w = [] := by
  refine List.filterMap_eq_nil_iff.mpr fun s hs => Task.waitOf_eq_none fun hs' => ?_
  obtain ⟨hmem, hticket⟩ := List.mem_filter.mp hs
  rw [task_unique h hmem ht hs' hwatch] at hticket
  simp at hticket

theorem waits_moment (h : d.Orderly) (hbegun : w.id < d.registry.nextId) (hm : m.Own d)
    (hother : m.isTurnOf w = false) (hopen : m ≠ .answer .restart) :
    (m.run d).waits w = d.waits w := by
  have hno : ∀ job : Job, NoWatch job → job.watch? ≠ some w := fun job hjob => by
    rw [hjob]
    exact nofun
  cases m with
  | turn t =>
    have hne : t.job.watch? ≠ some w := of_decide_eq_false hother
    have honce := atOnce_runJob (d.wake t) t.job
    have hwaits : (d.turn t).waits w = (d.wake t).waits w :=
      honce.waits_eq (fun job hjob => by rw [hjob]; exact hne) hbegun
    exact hwaits.trans (waits_wake h.ticketed hm hne)
  | wait now => rfl
  | ask tx => rfl
  | begin transfer => exact (atOnce_beginAttempt d transfer).waits_eq hno hbegun
  | hear a => exact (atOnce_hearAttempt d a).waits_eq hno hbegun
  | answer op =>
    exact (atOnce_answer hm fun hop => hopen (congrArg Moment.answer hop)).waits_eq hno hbegun

/-! ### From moment to moment -/

/-- The watch waits for `σ`, and has done `b` of its poll. -/
structure Watching (d : Desk) (w : Watch) (σ : Watch.Stage) (b : Watch.Account) : Prop where
  orderly : d.Orderly
  waits : ∃ due, d.waits w = [(due, σ)]
  midway : w.Midway d.options.timing σ b

def rests (d : Desk) (w : Watch) : Bool := (d.waits w).any fun wait => wait.2 = .pausing

theorem rests_of_waits (h : d.waits w = [(due, σ)]) : d.rests w = decide (σ = .pausing) := by
  unfold rests
  rw [h]
  simp

theorem watching_of_rests (h : d.Orderly) (hrests : d.rests w = true) :
    d.Watching w .pausing .none := by
  obtain ⟨⟨due, σ⟩, hmem, hσ⟩ := List.any_eq_true.mp hrests
  obtain rfl : σ = .pausing := of_decide_eq_true hσ
  exact ⟨h, ⟨due, waits_eq h.entered hmem⟩, .begins⟩

namespace Watching

theorem mem_watches (h : d.Watching w σ b) : w ∈ d.watches [] := by
  obtain ⟨due, hwaits⟩ := h.waits
  have hmem : (due, σ) ∈ d.waits w := by rw [hwaits]; exact List.mem_cons_self
  exact mem_watches_of_waits hmem

theorem turn (h : d.Watching w σ b) (hlive : d.isCancelled w = false) (ht : t ∈ d.tasks)
    (hwatch : t.job.watch? = some w) :
    ∃ a τ wait, t.job = .watch w σ ∧ d.TurnOf w σ a (d.turn t) ∧
      (d.turn t).waits w = [((d.turn t).now + wait, τ)] ∧
      w.Comes d.options.timing τ wait (b ++ a) ∧
      (τ = .pausing ∨ τ.turns d.options.timing.pageSize < σ.turns d.options.timing.pageSize) := by
  have hrun : d.stopped = false := by
    by_contra hstopped
    have hcancelled : d.isCancelled w = true := by
      unfold isCancelled Registry.isCancelled
      rw [h.orderly.halts (Bool.not_eq_false _ ▸ hstopped)]
      rfl
    rw [hlive] at hcancelled
    cases hcancelled
  have hjob : t.job = .watch w σ := by
    obtain ⟨due, hwaits⟩ := h.waits
    obtain ⟨s, hs, -, hjob⟩ := mem_waits.mp (show (due, σ) ∈ d.waits w by
      rw [hwaits]
      exact List.mem_cons_self)
    rw [task_unique h.orderly.entered ht hs hwatch (by rw [hjob]; rfl)]
    exact hjob
  obtain ⟨a, τ, wait, hturn⟩ := turn_of_live hrun hlive hjob
    (waits_wake_own h.orderly.entered ht hwatch) h.midway
  exact ⟨a, τ, wait, hjob, hturn⟩

theorem other (h : d.Watching w σ b) (hm : m.Own d) (hother : m.isTurnOf w = false)
    (hopen : m ≠ .answer .restart) : (m.run d).Watching w σ b where
  orderly := h.orderly.moment hm
  waits := by
    rw [waits_moment h.orderly (h.orderly.entered.begun w h.mem_watches) hm hother hopen]
    exact h.waits
  midway := by
    rw [options_moment hm]
    exact h.midway

end Watching

/-! ### From rest to rest -/

/-- What a watch does over a list of moments: what it does in its turns, one after
the other. -/
inductive Accounts (w : Watch) : Desk → List Moment → Watch.Account → Prop
  | nil {d : Desk} : Accounts w d [] .none
  | turn {d : Desk} {t : Task} {σ : Watch.Stage} {ms : List Moment} {a b : Watch.Account}
      (hjob : t.job = .watch w σ) (ha : d.TurnOf w σ a (d.turn t))
      (hb : Accounts w (d.turn t) ms b) : Accounts w d (.turn t :: ms) (a ++ b)
  | other {d : Desk} {m : Moment} {ms : List Moment} {b : Watch.Account}
      (hother : m.isTurnOf w = false) (hb : Accounts w (m.run d) ms b) : Accounts w d (m :: ms) b

/-- The last of the moments is the first turn of the watch after which it rests. -/
def EndsPoll (d : Desk) (w : Watch) : List Moment → Prop
  | [] => False
  | m :: ms =>
    if m.isTurnOf w && (m.run d).rests w then ms = [] else (m.run d).EndsPoll w ms

instance decidableEndsPoll (d : Desk) (w : Watch) :
    (ms : List Moment) → Decidable (d.EndsPoll w ms)
  | [] => inferInstanceAs (Decidable False)
  | m :: ms =>
    have := decidableEndsPoll (m.run d) w ms
    inferInstanceAs (Decidable
      (if m.isTurnOf w && (m.run d).rests w then ms = [] else (m.run d).EndsPoll w ms))

namespace Watching

theorem rests_eq (h : d.Watching w σ b) : d.rests w = decide (σ = .pausing) := by
  obtain ⟨due, hwaits⟩ := h.waits
  exact rests_of_waits hwaits

theorem next {τ : Watch.Stage} (h : d.Watching w σ b) (ht : t ∈ d.tasks)
    (hwaits : (d.turn t).waits w = [(due, τ)]) (ha : w.Midway d.options.timing τ a) :
    (d.turn t).Watching w τ a where
  orderly := h.orderly.moment (m := .turn t) ht
  waits := ⟨due, hwaits⟩
  midway := by
    rw [options_turn ht]
    exact ha

/-- What a moment is to a watch that waits for `σ` and has done `b` of its poll. -/
inductive Goes (w : Watch) (σ : Watch.Stage) (b : Watch.Account) (d : Desk) : Moment → Prop
  | other {m : Moment} (hother : m.isTurnOf w = false) (h : (m.run d).Watching w σ b) :
      Goes w σ b d m
  | last {t : Task} {a : Watch.Account} {wait : Nat} (hjob : t.job = .watch w σ)
      (ha : d.TurnOf w σ a (d.turn t)) (hpoll : w.Poll d.options.timing (b ++ a) wait)
      (hwaits : (d.turn t).waits w = [((d.turn t).now + wait, .pausing)])
      (h : (d.turn t).Watching w .pausing .none) : Goes w σ b d (.turn t)
  | further {t : Task} {a : Watch.Account} {τ : Watch.Stage} (hjob : t.job = .watch w σ)
      (ha : d.TurnOf w σ a (d.turn t)) (hτ : τ ≠ .pausing)
      (hturns : τ.turns d.options.timing.pageSize < σ.turns d.options.timing.pageSize)
      (h : (d.turn t).Watching w τ (b ++ a)) : Goes w σ b d (.turn t)

theorem moment (h : d.Watching w σ b) (hlive : d.isCancelled w = false) (hm : m.Own d)
    (hopen : m ≠ .answer .restart) : Goes w σ b d m := by
  by_cases hturn : m.isTurnOf w = true
  · cases m with
    | turn t =>
      obtain ⟨a, τ, wait, hjob, ha, hwaits, hcomes, hturns⟩ :=
        h.turn hlive hm (of_decide_eq_true hturn)
      rcases hcomes with ⟨rfl, hpoll⟩ | ⟨hτ, hmidway⟩
      · exact .last hjob ha hpoll hwaits (h.next hm hwaits .begins)
      · exact .further hjob ha hτ (hturns.resolve_left hτ) (h.next hm hwaits hmidway)
    | wait | ask | begin | hear | answer => cases hturn
  · have hother : m.isTurnOf w = false := Bool.not_eq_true _ ▸ hturn
    exact .other hother (h.other hm hother hopen)

end Watching

section EndsPoll

variable {τ : Watch.Stage}

theorem endsPoll_other (hother : m.isTurnOf w = false) :
    d.EndsPoll w (m :: ms) ↔ (m.run d).EndsPoll w ms := by
  rw [EndsPoll, hother]
  rfl

theorem endsPoll_turn (hjob : t.job = .watch w σ) (h : (d.turn t).Watching w τ b) :
    d.EndsPoll w (.turn t :: ms) ↔ if τ = .pausing then ms = [] else (d.turn t).EndsPoll w ms := by
  have hturn : Moment.isTurnOf w (.turn t) = true :=
    decide_eq_true (show t.job.watch? = some w by rw [hjob]; rfl)
  have hrests : (Moment.run d (.turn t)).rests w = decide (τ = .pausing) := h.rests_eq
  rw [EndsPoll, hturn, hrests]
  simp only [Bool.true_and, decide_eq_true_eq]
  rfl

end EndsPoll

namespace Watching

/-- Up to its next rest the turns of a watch make up one poll. -/
theorem poll (h : d.Watching w σ b) (hms : d.OwnMoments ms) (hopen : .answer .restart ∉ ms)
    (hlive : (d.runMoments ms).isCancelled w = false) (hends : d.EndsPoll w ms) :
    ∃ a wait, Accounts w d ms a ∧ w.Poll d.options.timing (b ++ a) wait ∧
      (d.runMoments ms).waits w = [((d.runMoments ms).now + wait, .pausing)] := by
  induction ms generalizing d σ b with
  | nil => exact hends.elim
  | cons m ms ih =>
    have hlive' : d.isCancelled w = false := live_of_runMoments hms hopen hlive
    obtain ⟨hm, hms⟩ := hms
    have hoptions := options_moment hm
    cases h.moment hlive' hm fun hm => hopen (hm ▸ List.mem_cons_self) with
    | other hother h =>
      obtain ⟨a, wait, ha, hpoll, hwaits⟩ := ih h hms (List.not_mem_of_not_mem_cons hopen) hlive
        ((endsPoll_other hother).mp hends)
      rw [hoptions] at hpoll
      exact ⟨a, wait, .other hother ha, hpoll, hwaits⟩
    | @last t a wait hjob ha hpoll hwaits h =>
      obtain rfl : ms = [] := by
        rwa [endsPoll_turn hjob h, if_pos rfl] at hends
      refine ⟨a ++ .none, wait, .turn hjob ha .nil, ?_, hwaits⟩
      rw [Watch.Account.append_none]
      exact hpoll
    | @further t a τ hjob ha hτ _ h =>
      rw [endsPoll_turn hjob h, if_neg hτ] at hends
      obtain ⟨a', wait, ha', hpoll, hwaits⟩ :=
        ih h hms (List.not_mem_of_not_mem_cons hopen) hlive hends
      rw [Watch.Account.append_assoc] at hpoll
      exact ⟨a ++ a', wait, .turn hjob ha ha', hoptions ▸ hpoll, hwaits⟩

theorem run (h : d.Watching w σ b) (hms : d.OwnMoments ms) (hopen : .answer .restart ∉ ms)
    (hlive : (d.runMoments ms).isCancelled w = false) :
    ∃ τ a, (d.runMoments ms).Watching w τ a := by
  induction ms generalizing d σ b with
  | nil => exact ⟨σ, b, h⟩
  | cons m ms ih =>
    have hlive' : d.isCancelled w = false := live_of_runMoments hms hopen hlive
    obtain ⟨hm, hms⟩ := hms
    have hrest := List.not_mem_of_not_mem_cons hopen
    cases h.moment hlive' hm fun hm => hopen (hm ▸ List.mem_cons_self) with
    | other _ h => exact ih h hms hrest hlive
    | last _ _ _ _ h => exact ih h hms hrest hlive
    | further _ _ _ _ h => exact ih h hms hrest hlive

theorem ends (h : d.Watching w σ b) (hms : d.OwnMoments ms) (hopen : .answer .restart ∉ ms)
    (hlive : (d.runMoments ms).isCancelled w = false)
    (hturns : σ.turns d.options.timing.pageSize ≤ ms.countP (Moment.isTurnOf w)) :
    ∃ ms₁ ms₂, ms = ms₁ ++ ms₂ ∧ d.EndsPoll w ms₁ := by
  induction ms generalizing d σ b with
  | nil => cases σ <;> cases hturns
  | cons m ms ih =>
    have hlive' : d.isCancelled w = false := live_of_runMoments hms hopen hlive
    obtain ⟨hm, hms⟩ := hms
    have hrest := List.not_mem_of_not_mem_cons hopen
    have hoptions := options_moment hm
    cases h.moment hlive' hm fun hm => hopen (hm ▸ List.mem_cons_self) with
    | other hother h =>
      rw [List.countP_cons_of_neg (by simp [hother]), ← hoptions] at hturns
      obtain ⟨ms₁, ms₂, rfl, hends⟩ := ih h hms hrest hlive hturns
      exact ⟨m :: ms₁, ms₂, rfl, (endsPoll_other hother).mpr hends⟩
    | @last t a wait hjob _ _ _ h =>
      refine ⟨[.turn t], ms, rfl, (endsPoll_turn hjob h).mpr ?_⟩
      rw [if_pos rfl]
    | @further t a τ hjob _ hτ hfewer h =>
      have hmore : σ.turns d.options.timing.pageSize ≤ ms.countP (Moment.isTurnOf w) + 1 := by
        rw [List.countP_cons] at hturns
        split at hturns <;> omega
      obtain ⟨ms₁, ms₂, rfl, hends⟩ := ih h hms hrest hlive (by
        rw [options_turn hm]
        omega)
      refine ⟨.turn t :: ms₁, ms₂, rfl, (endsPoll_turn hjob h).mpr ?_⟩
      rw [if_neg hτ]
      exact hends

end Watching

theorem options_runMoments (options : Options) (hms : (start options).OwnMoments ms) :
    ((start options).runMoments ms).options = options :=
  hms.invariant (P := fun d => d.options = options) (fun _ hm h => (options_moment hm).trans h) rfl

/-- **A poll reports what its page shows.** Runs go through moments
(`Desk.passes_runOps`). At any of them let a watch rest, and let anything happen
from then on but that the desk is opened anew or the watch cancelled. Then the
watch has the entry of its address and waits for one thing, whatever the node has
answered. Its turns up to the next rest make up one poll: if the address cannot be
read or the search fails, nothing is looked up and the watch rests for the
back-off; else every transaction id of the page is looked up in order, as often as
it occurs, the observer is told in this order of each depth that was answered, and
the watch rests for the poll interval. It rests after two turns more, at most,
than a page has places. -/
theorem poll_reports_page (options : Options) {before : List Moment}
    (hbefore : (start options).OwnMoments before)
    (hrests : ((start options).runMoments before).rests w = true)
    (hms : ((start options).runMoments before).OwnMoments ms) (hopen : .answer .restart ∉ ms)
    (hlive : (((start options).runMoments before).runMoments ms).isCancelled w = false) :
    let d := (start options).runMoments before
    let e := d.runMoments ms
    (e.registry.entries.get? w.address = some w.id ∧ ∃ due σ, e.waits w = [(due, σ)]) ∧
    (d.EndsPoll w ms → ∃ a wait, Accounts w d ms a ∧ w.Poll options.timing a wait ∧
      e.waits w = [(e.now + wait, .pausing)]) ∧
    (options.timing.pageSize + 2 ≤ ms.countP (Moment.isTurnOf w) →
      ∃ ms₁ ms₂, ms = ms₁ ++ ms₂ ∧ d.EndsPoll w ms₁) := by
  intro d e
  have hoptions : d.options = options := options_runMoments options hbefore
  have hwatching : d.Watching w .pausing .none :=
    watching_of_rests (orderly_runMoments options hbefore) hrests
  refine ⟨?_, fun hends => ?_, fun hturns => ?_⟩
  · obtain ⟨σ, a, hgoes⟩ := hwatching.run hms hopen hlive
    obtain ⟨due, hwaits⟩ := hgoes.waits
    exact ⟨hgoes.orderly.entered.entered w hgoes.mem_watches hlive, due, σ, hwaits⟩
  · rw [← hoptions]
    exact hwatching.poll hms hopen hlive hends
  · rw [← hoptions] at hturns
    exact hwatching.ends hms hopen hlive hturns

/-- One transaction is found twice, one is not known to the node, and one entry is
no transaction id; the node takes a second for each look-up. -/
def mixedPage : List Moment :=
  [.answer (.script { Node.Script.empty with
      found := [(pageWatch.address, World.firstTx), (pageWatch.address, "no id"),
        (pageWatch.address, World.secondTx), (pageWatch.address, World.firstTx)]
      depths := Table.empty.insert World.firstTx 3
      lookupDelay := 1000 }),
    .answer (.watch pageWatch.address .testnet (.journal "page"))]

/-- The turns up to the next rest; the second answer for the first transaction is
another than the first. -/
def mixedPoll : List Moment :=
  [.turn { due := 0, ticket := 0, job := .watch pageWatch .pausing },
    .wait 1000,
    .turn { due := 1000, ticket := 1, job :=
      .watch pageWatch (.looking World.firstTx ["no id", World.secondTx, World.firstTx]) },
    .wait 2000,
    .turn { due := 2000, ticket := 2, job :=
      .watch pageWatch (.looking World.secondTx [World.firstTx]) },
    .answer (.script { Node.Script.empty with
      depths := Table.empty.insert World.firstTx 4 }),
    .wait 3000,
    .turn { due := 3000, ticket := 3, job := .watch pageWatch (.looking World.firstTx []) }]

/-- What is malformed and what fails is passed over, and the rest is told. -/
theorem poll_reports_page_mixed :
    let options := (ofStore .empty).options
    let d := (start options).runMoments mixedPage
    let e := d.runMoments mixedPoll
    (∃ a wait, Accounts pageWatch d mixedPoll a ∧ pageWatch.Poll options.timing a wait ∧
      e.waits pageWatch = [(e.now + wait, .pausing)]) ∧
    e.journal.sightings =
      [("page", .of World.firstTx 3), ("page", .of World.firstTx 4)] := by
  intro options d e
  have hbefore : (start options).OwnMoments mixedPage := by decide +kernel
  have hrests : d.rests pageWatch = true := by decide +kernel
  have hms : d.OwnMoments mixedPoll := by decide +kernel
  have hlive : e.isCancelled pageWatch = false := by decide +kernel
  obtain ⟨-, hpoll, -⟩ :=
    poll_reports_page options hbefore hrests hms (by simp [mixedPoll]) hlive
  exact ⟨hpoll (by decide +kernel), by decide +kernel⟩

end Desk
end Clearing

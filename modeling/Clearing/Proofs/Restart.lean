import Clearing.Desk.Recovery
import Clearing.Proofs.Latch

/-!
# What a restart takes up

Taking up open work gives a task to every transfer whose latch is not flipped; a
transfer whose attempt stopped between its claim and its last status is pending
and has none, and its funds may have moved halfway. This, a refund that was
refused, and payments that do not read back are all that can go wrong.
-/

namespace Clearing

open Attempt

/-! ### Taking up open work -/

theorem Store.Sound.unprocessed_iff {s : Store} (hs : s.Sound) (t : Nat) :
    (∃ q ∈ s.unprocessedTransfers, q.id = t) ↔
      ∃ r, s.transfers.get? t = some r ∧ r.isProcessed = false := by
  unfold Store.unprocessedTransfers Table.rows
  constructor
  · rintro ⟨q, hq, rfl⟩
    obtain ⟨hmem, hp⟩ := List.mem_filter.mp hq
    obtain ⟨⟨k, q⟩, hentry, rfl⟩ := List.mem_map.mp hmem
    have hget := (Table.mem_iff_get? s.transfers k q).mp hentry
    obtain rfl := hs.transfer_id hget
    exact ⟨q, hget, by simpa using hp⟩
  · rintro ⟨r, hr, hp⟩
    have hentry := (Table.mem_iff_get? s.transfers t r).mpr hr
    exact ⟨r, List.mem_filter.mpr ⟨List.mem_map.mpr ⟨_, hentry, rfl⟩, by simp [hp]⟩,
      hs.transfer_id hr⟩

namespace Desk

def Schedules (d : Desk) (t : Nat) : Prop :=
  ∃ task ∈ d.tasks, task.due ≤ d.now ∧ task.job = .settle (.start t)

theorem schedules_schedule (d : Desk) (t t' : Nat) :
    (d.schedule t').Schedules t ↔ d.Schedules t ∨ t' = t := by
  unfold schedule later Schedules
  constructor
  · rintro ⟨task, hmem, hdue, hjob⟩
    rcases List.mem_append.mp hmem with hmem | hmem
    · exact .inl ⟨task, hmem, hdue, hjob⟩
    · rw [List.mem_singleton.mp hmem] at hjob
      cases hjob
      exact .inr rfl
  · rintro (⟨task, hmem, hdue, hjob⟩ | rfl)
    · exact ⟨task, List.mem_append_left _ hmem, hdue, hjob⟩
    · exact ⟨_, List.mem_append_right _ List.mem_cons_self, Nat.le_refl _, rfl⟩

theorem schedules_scheduleAll (d : Desk) (ts : List Transfer) (t : Nat) :
    (ts.foldl (fun d q => d.schedule q.id) d).Schedules t ↔
      d.Schedules t ∨ ∃ q ∈ ts, q.id = t := by
  induction ts generalizing d with
  | nil => simp
  | cons q ts ih =>
    rw [List.foldl_cons, ih, schedules_schedule, or_assoc]
    simp

theorem watch_of_running (d : Desk) (address : String) (network : Network) (observer : Observer)
    (hs : d.registry.stopped = false) :
    d.watch address network observer = (.error (.alreadyWatched address), d) ∨
    ∃ w d', d.watch address network observer = (.ok w, d') ∧ d'.registry.stopped = false ∧
      d'.store = d.store ∧ ∀ t, d'.Schedules t ↔ d.Schedules t := by
  unfold watch Registry.register
  rw [hs]
  by_cases hw : d.registry.isWatching address = true
  · left
    simp [hw]
  · right
    simp only [hw, Bool.false_eq_true, if_false]
    refine ⟨_, _, rfl, rfl, rfl, fun t => ?_⟩
    unfold later Schedules
    constructor
    · rintro ⟨task, hmem, hdue, hjob⟩
      rcases List.mem_append.mp hmem with hmem | hmem
      · exact ⟨task, hmem, hdue, hjob⟩
      · rw [List.mem_singleton.mp hmem] at hjob
        cases hjob
    · rintro ⟨task, hmem, hdue, hjob⟩
      exact ⟨task, List.mem_append_left _ hmem, hdue, hjob⟩

theorem watchAll_of_running (d : Desk) (started : Nat) (ps : List Payment)
    (hs : d.registry.stopped = false) :
    ∃ n d', d.watchAll started ps = (.ok n, d') ∧ d'.store = d.store ∧
      ∀ t, d'.Schedules t ↔ d.Schedules t := by
  induction ps generalizing d started with
  | nil => exact ⟨started, d, rfl, rfl, fun _ => Iff.rfl⟩
  | cons p ps ih =>
    obtain hw | ⟨w, d₁, hw, hs₁, hstore₁, hsched₁⟩ :=
      d.watch_of_running p.receivingAddress d.options.network (.payment p.id) hs
    · obtain ⟨n, d', h, hstore, hsched⟩ := ih d started hs
      refine ⟨n, d', ?_, hstore, hsched⟩
      unfold watchAll watchPayment
      rw [hw]
      exact h
    · obtain ⟨n, d', h, hstore, hsched⟩ := ih d₁ (started + 1) hs₁
      refine ⟨n, d', ?_, hstore.trans hstore₁, fun t => (hsched t).trans (hsched₁ t)⟩
      unfold watchAll watchPayment
      rw [hw]
      exact h

/-- After a restart the open work is taken up unless a payment does not read
back, and a task is given to each unprocessed transfer and to no other. -/
theorem schedules_resume (d : Desk) (hs : d.store.Sound) (t : Nat) :
    d.restart.resume.2.Schedules t ↔
      d.store.unfinishedPayments.isOk ∧
        ∃ r, d.store.transfers.get? t = some r ∧ r.isProcessed = false := by
  have hidle : ¬ d.restart.Schedules t := by
    rintro ⟨task, hmem, -⟩
    cases hmem
  cases hp : d.store.unfinishedPayments with
  | error fault =>
    have hp' : d.restart.store.unfinishedPayments = .error fault := hp
    have hres : d.restart.resume.2 = d.restart := by
      unfold resume resumeWatches
      rw [hp']
    rw [hres]
    simp [hidle, Except.isOk, Except.toBool]
  | ok payments =>
    have hp' : d.restart.store.unfinishedPayments = .ok payments := hp
    obtain ⟨n, d', hw, hstore, hsched⟩ :=
      d.restart.watchAll_of_running 0 (payments.filter fun p => !p.status.endsWatch) rfl
    have hres : d.restart.resume.2 = d'.resumeTransfers.2 := by
      unfold resume resumeWatches
      rw [hp']
      simp only [hw]
    have hstore : d'.store = d.store := hstore
    rw [hres]
    show (d'.store.unprocessedTransfers.foldl (fun d q => d.schedule q.id) d').Schedules t ↔ _
    rw [schedules_scheduleAll, hsched, hstore, hs.unprocessed_iff]
    simp [hidle, Except.isOk, Except.toBool]

end Desk

/-! ### What the attempts have moved -/

def gains (k : Nat) (ds : List Deed) : Int := (ds.map (Deed.gain k)).sum

theorem gains_append (k : Nat) (ds ds' : List Deed) :
    gains k (ds ++ ds') = gains k ds + gains k ds' := by
  unfold gains
  rw [List.map_append, List.sum_append]

theorem gains_binding (k : Nat) (d : Option Deed) :
    gains k (d.filter Deed.binds).toList = d.elim 0 (Deed.gain k) := by
  cases d with
  | none => rfl
  | some d => cases d <;> simp [gains, Deed.binds, Deed.gain, Option.filter]

/-- The deeds have moved the amount of the transfer from its source to its
receiver, or nothing. -/
def Whole (r : Transfer) (ds : List Deed) : Prop :=
  (∀ k, gains k ds = 0) ∨ ∀ k, gains k ds = r.gain k

theorem not_whole_of_debit {r : Transfer} {ds : List Deed} (hpos : 0 < r.amount)
    (h : ∀ k, gains k ds = if k = r.source then -r.amount else 0) : ¬ Whole r ds := by
  rintro (hnone | hall)
  · have hsource := hnone r.source
    rw [h, if_pos rfl] at hsource
    omega
  · have hreceiver := hall r.receiver
    unfold Transfer.gain at hreceiver
    rw [h, if_pos rfl] at hreceiver
    omega

/-- The attempt that has the latch is through with the funds, and they are
moved or not, unless the refund was refused. -/
theorem Moving.whole_iff {r : Transfer} {ds : List Deed} {status : TransferStatus}
    (h : Moving r ds (.finishing status)) : Whole r ds ↔ .refundRefused ∉ ds := by
  cases h with
  | debitRefused =>
    refine iff_of_true (.inl fun k => ?_) (by simp)
    simp [gains, Deed.gain]
  | credited hpos =>
    refine iff_of_true (.inr fun k => ?_) (by simp)
    simp [gains, Deed.gain, Transfer.gain]
  | refunded hpos =>
    refine iff_of_true (.inl fun k => ?_) (by simp)
    simp only [gains, Deed.gain, List.map_cons, List.map_nil, List.sum_cons, List.sum_nil]
    split
    · omega
    · omega
  | refundRefused hpos =>
    refine iff_of_false (not_whole_of_debit hpos fun k => ?_) (by simp)
    simp [gains, Deed.gain]

theorem Moving.claimed_mem {r : Transfer} {ds : List Deed} {σ : Stage} (h : Moving r ds σ) :
    .claimed ∈ ds := by
  cases h <;> exact List.mem_cons_self

theorem Moving.settled_not_mem {r : Transfer} {ds : List Deed} {σ : Stage} (h : Moving r ds σ)
    (status : TransferStatus) : .settled status ∉ ds := by
  cases h <;> simp

theorem Moving.status_ne {r : Transfer} {ds : List Deed} {status : TransferStatus}
    (h : Moving r ds (.finishing status)) : status ≠ .pending := by
  cases h <;> simp

namespace World

variable {policy : Policy} {w : World}

def actsOn (w : World) (t : Nat) : Event → Bool
  | .act i => w.attempts[i]?.any (·.transfer == t)
  | _ => false

/-- What the transactions of the attempts on `t` have added to the balance of
the wallet `k` in a run. -/
def flow (policy : Policy) (t k : Nat) (w : World) : List Event → Int
  | [] => 0
  | e :: events =>
    (if w.actsOn t e then (w.step policy e).store.balance k - w.store.balance k else 0) +
      (w.step policy e).flow policy t k events

theorem gains_step (policy : Policy) (hi : w.Inv) (e : Event) (t k : Nat) :
    gains k ((w.step policy e).deeds t) = gains k (w.deeds t) +
      if w.actsOn t e then (w.step policy e).store.balance k - w.store.balance k else 0 := by
  by_cases hact : ∃ i, e = .act i
  · obtain ⟨i, rfl⟩ := hact
    cases ha : w.attempts[i]? with
    | none =>
      rw [step_act_none policy ha]
      simp [actsOn, ha]
    | some a =>
      have hbalance := (turn_step policy w.store a).balance hi.sound k
      rw [step_act policy ha, deeds_goOn, gains_append]
      by_cases ht : a.transfer = t
      · have hon : w.actsOn t (.act i) = true := by simp [actsOn, ha, ht]
        rw [if_pos ht, if_pos hon, gains_binding]
        show _ = _ + ((a.step policy w.store).2.1.balance k - _)
        omega
      · have hoff : w.actsOn t (.act i) = false := by simp [actsOn, ha, ht]
        rw [if_neg ht, hoff]
        rfl
  · have hother : ∀ i, e ≠ .act i := fun i hi => hact ⟨i, hi⟩
    have hoff : w.actsOn t e = false := by
      cases e with
      | act i => exact absurd rfl (hother i)
      | _ => rfl
    rw [deeds_of_not_act policy w hother, hoff]
    exact (Int.add_zero _).symm

theorem flow_eq (policy : Policy) (hi : w.Inv) (events : List Event) (t k : Nat) :
    w.flow policy t k events = gains k ((w.run policy events).deeds t) - gains k (w.deeds t) := by
  induction events generalizing w with
  | nil =>
    show 0 = gains k (w.deeds t) - gains k (w.deeds t)
    omega
  | cons e events ih =>
    have hi' : (w.step policy e).Inv := inv_step hi e
    have hstep := gains_step policy hi e t k
    show _ + (w.step policy e).flow policy t k events =
      gains k (((w.step policy e).run policy events).deeds t) - _
    rw [ih hi']
    omega

theorem Latched.restart_iff {t : Nat} (h : w.Latched t) {r : Transfer}
    (hr : w.store.transfers.get? t = some r) {scheduled readable : Prop}
    (hsched : scheduled ↔ readable ∧ r.isProcessed = false) :
    ((r.status = .pending → scheduled) ∧ Whole r (w.deeds t)) ↔
      ((.claimed ∈ w.deeds t → ∃ status, .settled status ∈ w.deeds t) ∧
        .refundRefused ∉ w.deeds t ∧ (r.status = .pending → readable)) := by
  rcases h with hf | ⟨i, q, σ, htaken⟩
  · obtain ⟨hp, hs⟩ := hf.row r hr
    have hwhole : Whole r [] := .inl fun _ => rfl
    rw [hf.deeds, hsched]
    simp [hs, hp, hwhole]
  · obtain rfl : q = r := by
      have hq := htaken.row
      rw [hr] at hq
      exact (Option.some.inj hq).symm
    have hp := htaken.processed
    have hheld := htaken.held
    generalize w.deeds t = ds at hheld
    cases hheld with
    | moving hs hm =>
      -- the attempt is between its claim and its last status
      refine iff_of_false (fun ⟨hpending, _⟩ => ?_) (fun ⟨hclaimed, _⟩ => ?_)
      · have hopen := (hsched.mp (hpending hs)).2
        simp [hp] at hopen
      · obtain ⟨status, hmem⟩ := hclaimed hm.claimed_mem
        exact hm.settled_not_mem status hmem
    | @settled r ds status hs hm =>
      have hwhole : Whole { r with status } (ds ++ [.settled status]) ↔ Whole r ds := by
        have hgains : ∀ k, gains k (ds ++ [.settled status]) = gains k ds := fun k => by
          rw [gains_append]
          exact Int.add_zero _
        unfold Whole
        simp only [hgains]
        exact Iff.rfl
      rw [hwhole, hm.whole_iff]
      simp [hm.status_ne]
    | closed hs =>
      have hwhole : Whole q [.closed] := .inl fun _ => rfl
      simp [hs, hwhole]
    | reported hs =>
      rw [hs]
      have hwhole : Whole q [.closed, .settled .failed] := .inl fun _ => rfl
      simp [hwhole]

/-- **What a restart makes good.** Stop any run at any point, open a desk over the
store as it is, and take up the open work. Then a transfer has a task if it is
pending, and its attempts have moved its whole amount or nothing, exactly if no
attempt stopped between its claim and its last status, no refund was refused, and,
should it be pending, the payments read back. -/
theorem restart_takes_up_iff (policy : Policy) (events : List Event) (d : Desk) (t : Nat)
    (r : Transfer) (hd : d.store = (empty.run policy events).store)
    (hr : d.store.transfers.get? t = some r) :
    let w := empty.run policy events
    ((r.status = .pending → d.restart.resume.2.Schedules t) ∧
        ((∀ k, empty.flow policy t k events = 0) ∨
          ∀ k, empty.flow policy t k events = r.gain k)) ↔
      ((.claimed ∈ w.deeds t → ∃ status, .settled status ∈ w.deeds t) ∧
        .refundRefused ∉ w.deeds t ∧
        (r.status = .pending → d.store.unfinishedPayments.isOk)) := by
  intro w
  have hi : w.Inv := inv_run policy events
  have hflow : ∀ k, empty.flow policy t k events = gains k (w.deeds t) := by
    intro k
    rw [flow_eq policy inv_empty]
    exact Int.sub_zero _
  have hsched : d.restart.resume.2.Schedules t ↔
      d.store.unfinishedPayments.isOk ∧ r.isProcessed = false := by
    rw [Desk.schedules_resume d (hd ▸ hi.sound), hr]
    simp
  simp only [hflow]
  rw [hd] at hr
  exact (hi.latched t).restart_iff hr hsched

/-- After a run to the end the amount is moved whole. -/
theorem restart_takes_up_settled :
    ∃ r, (empty.run .failFast (twoWallets ++ settledBy 0 [])).store.transfers.get? 1 = some r ∧
      ((∀ k, empty.flow .failFast 1 k (twoWallets ++ settledBy 0 []) = 0) ∨
        ∀ k, empty.flow .failFast 1 k (twoWallets ++ settledBy 0 []) = r.gain k) := by
  have hdeeds : (empty.run .failFast (twoWallets ++ settledBy 0 [])).deeds 1 =
      [.claimed, .debited 1 25, .credited 2 25, .settled .completed] := rfl
  refine ⟨_, rfl, ((restart_takes_up_iff .failFast (twoWallets ++ settledBy 0 [])
    (.ofStore (empty.run .failFast (twoWallets ++ settledBy 0 [])).store) 1 _ rfl rfl).mpr
    ⟨fun _ => ⟨.completed, ?_⟩, ?_, fun h => ?_⟩).2⟩
  · rw [hdeeds]
    simp
  · rw [hdeeds]
    simp
  · cases h

/-- A run that stops right after the claim leaves a pending transfer that no
restart takes up. -/
theorem stranded_after_claim :
    ¬ ∀ (policy : Policy) (events : List Event) (d : Desk) (t : Nat) (r : Transfer),
      d.store = (empty.run policy events).store → d.store.transfers.get? t = some r →
      (r.status = .pending → d.restart.resume.2.Schedules t) ∧
        ((∀ k, empty.flow policy t k events = 0) ∨
          ∀ k, empty.flow policy t k events = r.gain k) := by
  intro h
  have hsound : (empty.run .failFast (twoWallets ++
      [.begin 1, .act 0, .answer 0 (.ok 6), .act 0])).store.Sound := sound_run _
  obtain ⟨hpending, -⟩ := h .failFast (twoWallets ++
      [.begin 1, .act 0, .answer 0 (.ok 6), .act 0]) (.ofStore _) 1 _ rfl rfl
  obtain ⟨-, r, hr, hopen⟩ := (Desk.schedules_resume _ hsound 1).mp (hpending rfl)
  cases hr
  cases hopen

end World
end Clearing

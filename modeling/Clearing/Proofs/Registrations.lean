import Clearing.Proofs.TrackSteps

/-!
# The numbers of the watches

Every watch gets a number of its own when it is registered, and no number
stands at two addresses, whatever callers do. So cancelling the watch of one
address leaves the watches of all others as they were. As long as nobody
cancels a watch through its handle or stops the registry, no entry belongs to
a watch that was cancelled.
-/

namespace Clearing

namespace Registry

variable {r r' : Registry}

/-- The watch with this number stands at the address and is not cancelled. -/
def Active (r : Registry) (address : String) (id : Nat) : Prop :=
  r.entries.get? address = some id ∧ r.isCancelled id = false

instance (r : Registry) (address : String) (id : Nat) : Decidable (r.Active address id) :=
  inferInstanceAs (Decidable (_ ∧ _))

/-- Numbers are given out in turn, each to one address. -/
structure Numbered (r : Registry) : Prop where
  lt : ∀ {address id}, r.entries.get? address = some id → id < r.nextId
  inj : ∀ {address address' id}, r.entries.get? address = some id →
    r.entries.get? address' = some id → address = address'

/-- No entry belongs to a watch that was cancelled. -/
structure Live (r : Registry) : Prop extends Numbered r where
  running : r.stopped = false
  cancelled_lt : ∀ {id}, r.cancelled.contains id = true → id < r.nextId
  live : ∀ {address id}, r.entries.get? address = some id → r.cancelled.contains id = false

/-! ### Reading after a change -/

theorem register_eq_ok {address : String} {network : Network} {observer : Observer} {w : Watch} :
    r.register address network observer = .ok (w, r') ↔
      r.stopped = false ∧ r.entries.get? address = none ∧
        w = { id := r.nextId, address, network, observer } ∧
        r' = { r with entries := r.entries.insert address r.nextId, nextId := r.nextId + 1 } := by
  unfold register isWatching Table.contains
  cases r.stopped with
  | true => simp
  | false =>
    cases r.entries.get? address with
    | some id => simp
    | none =>
      simp only [Bool.false_eq_true, if_false, Option.isSome_none, Except.ok.injEq, Prod.mk.injEq,
        true_and]
      exact ⟨fun h => ⟨h.1.symm, h.2.symm⟩, fun h => ⟨h.1.symm, h.2.symm⟩⟩

theorem isWatching_iff {address : String} :
    r.isWatching address = true ↔ ∃ id, r.entries.get? address = some id :=
  Option.isSome_iff_exists

theorem isWatching_insert (r : Registry) (address address' : String) (id next : Nat) :
    ({ r with entries := r.entries.insert address id, nextId := next } :
      Registry).isWatching address' = true ↔
      address' = address ∨ r.isWatching address' = true := by
  rw [isWatching_iff, isWatching_iff]
  simp only [Table.get?_insert]
  by_cases ha : address' = address
  · simp [ha]
  · simp [ha]

theorem get?_cancel (r : Registry) (address address' : String) :
    (r.cancel address).2.entries.get? address' =
      if address' = address then none else r.entries.get? address' := by
  unfold cancel
  cases h : r.entries.get? address with
  | none =>
    by_cases ha : address' = address
    · rw [if_pos ha, ha, h]
    · rw [if_neg ha]
  | some id => exact Table.get?_erase ..

theorem isCancelled_cancel (r : Registry) (address : String) (id : Nat) :
    (r.cancel address).2.isCancelled id =
      (r.isCancelled id || r.entries.get? address == some id) := by
  unfold cancel
  cases r.entries.get? address with
  | none => simp
  | some n =>
    show (r.stopped || (n :: r.cancelled).contains id) = _
    unfold isCancelled
    rw [List.contains_cons, Bool.or_assoc, Bool.or_comm (id == n)]
    congr 2
    by_cases h : id = n
    · simp [h]
    · simp [h, Ne.symm h]

theorem nextId_cancel (r : Registry) (address : String) :
    (r.cancel address).2.nextId = r.nextId := by
  unfold cancel
  split <;> rfl

theorem nextId_release (r : Registry) (w : Watch) : (r.release w).nextId = r.nextId := by
  unfold release
  split <;> rfl

theorem of_get?_release {w : Watch} {address : String} {id : Nat}
    (h : (r.release w).entries.get? address = some id) : r.entries.get? address = some id := by
  unfold release at h
  split at h
  · rw [Table.get?_erase] at h
    split at h
    · cases h
    · exact h
  · exact h

/-! ### Numbers stay apart -/

theorem numbered_empty : empty.Numbered where
  lt h := by cases h
  inj h := by cases h

theorem live_empty : empty.Live where
  toNumbered := numbered_empty
  running := rfl
  cancelled_lt h := by cases h
  live h := by cases h

theorem Numbered.of_subset (h : r.Numbered)
    (hsub : ∀ {address id}, r'.entries.get? address = some id → r.entries.get? address = some id)
    (hnext : r'.nextId = r.nextId) : r'.Numbered where
  lt hid := hnext ▸ h.lt (hsub hid)
  inj hid hid' := h.inj (hsub hid) (hsub hid')

theorem Numbered.cancel (h : r.Numbered) (address : String) : (r.cancel address).2.Numbered := by
  refine h.of_subset (fun hid => ?_) (nextId_cancel r address)
  rw [get?_cancel] at hid
  split at hid
  · cases hid
  · exact hid

theorem Numbered.release (h : r.Numbered) (w : Watch) : (r.release w).Numbered :=
  h.of_subset of_get?_release (nextId_release r w)

theorem Numbered.insert (h : r.Numbered) (address : String) :
    ({ r with entries := r.entries.insert address r.nextId, nextId := r.nextId + 1 } :
      Registry).Numbered where
  lt hid := by
    rw [Table.get?_insert] at hid
    split at hid
    · cases hid
      exact Nat.lt_succ_self _
    · exact Nat.lt_succ_of_lt (h.lt hid)
  inj {a b id} ha hb := by
    rw [Table.get?_insert] at ha hb
    have hold : ∀ {c}, r.entries.get? c = some id → id ≠ r.nextId :=
      fun hc => Nat.ne_of_lt (h.lt hc)
    split at ha
    · rename_i ha'
      split at hb
      · rename_i hb'
        rw [ha', hb']
      · exact absurd (Option.some.inj ha).symm (hold hb)
    · split at hb
      · exact absurd (Option.some.inj hb).symm (hold ha)
      · exact h.inj ha hb

theorem active_cancel (h : r.Numbered) (address address' : String) (id : Nat) :
    (r.cancel address).2.Active address' id ↔ r.Active address' id ∧ address' ≠ address := by
  unfold Active
  rw [get?_cancel, isCancelled_cancel, Bool.or_eq_false_iff]
  constructor
  · rintro ⟨hid, hc, -⟩
    split at hid
    · cases hid
    · rename_i hne
      exact ⟨⟨hid, hc⟩, hne⟩
  · rintro ⟨⟨hid, hc⟩, hne⟩
    refine ⟨by rw [if_neg hne, hid], hc, ?_⟩
    rw [beq_eq_false_iff_ne]
    exact fun hid' => hne (h.inj hid hid')

/-! ### Entries stay alive -/

theorem Live.cancel (h : r.Live) (address : String) : (r.cancel address).2.Live := by
  unfold Registry.cancel
  cases hentry : r.entries.get? address with
  | none => exact h
  | some n =>
    have hnumbered : (r.cancel address).2.Numbered := h.toNumbered.cancel address
    unfold Registry.cancel at hnumbered
    rw [hentry] at hnumbered
    refine { toNumbered := hnumbered, running := h.running, cancelled_lt := ?_, live := ?_ }
    · intro id hid
      replace hid : (n :: r.cancelled).contains id = true := hid
      rw [List.contains_cons, Bool.or_eq_true_iff] at hid
      rcases hid with hid | hid
      · rw [eq_of_beq hid]
        exact h.lt hentry
      · exact h.cancelled_lt hid
    · intro address' id hid
      replace hid : (r.entries.erase address).get? address' = some id := hid
      rw [Table.get?_erase] at hid
      split at hid
      · cases hid
      · rename_i hne
        show (n :: r.cancelled).contains id = false
        rw [List.contains_cons, Bool.or_eq_false_iff, beq_eq_false_iff_ne]
        refine ⟨?_, h.live hid⟩
        rintro rfl
        exact hne (h.inj hid hentry)

theorem Live.insert (h : r.Live) (address : String) :
    ({ r with entries := r.entries.insert address r.nextId, nextId := r.nextId + 1 } :
      Registry).Live where
  toNumbered := h.toNumbered.insert address
  running := h.running
  cancelled_lt hid := Nat.lt_succ_of_lt (h.cancelled_lt hid)
  live {address' id} hid := by
    rw [Table.get?_insert] at hid
    split at hid
    · cases hid
      rw [Bool.eq_false_iff]
      exact fun hold => Nat.lt_irrefl _ (h.cancelled_lt hold)
    · exact h.live hid

theorem Live.active (h : r.Live) {address : String} {id : Nat}
    (hid : r.entries.get? address = some id) : r.Active address id := by
  refine ⟨hid, ?_⟩
  unfold isCancelled
  rw [h.running, h.live hid, Bool.or_self]

theorem Live.isWatching_iff_active (h : r.Live) {address : String} :
    r.isWatching address = true ↔ ∃ id, r.Active address id := by
  rw [isWatching_iff]
  exact ⟨fun ⟨id, hid⟩ => ⟨id, h.active hid⟩, fun ⟨id, hid⟩ => ⟨id, hid.1⟩⟩

theorem Live.release_of_cancelled (h : r.Live) {w : Watch} (hw : r.isCancelled w.id = true) :
    r.release w = r := by
  unfold release
  rw [if_neg]
  intro hid
  have hactive := (h.active hid).2
  rw [hw] at hactive
  cases hactive

end Registry

/-! ### The registry of a desk -/

namespace Desk

variable {d d' : Desk}

theorem Aside.registry (h : d.Aside d') : d'.registry = d.registry := by
  cases h <;> rfl

theorem registry_submit (d : Desk) (u : Update) : (d.submit u).2.registry = d.registry := by
  unfold submit
  split
  · rfl
  · simp only
    split <;> rfl

/-- A merge cancels the watch at the address of the payment that it takes to a
status which ends watches, and no other. -/
theorem registry_apply (d : Desk) (u : Update) :
    (d.apply u).2.registry =
      match (d.apply u).1 with
      | .ok (.applied p) =>
        if p.status.endsWatch then (d.registry.cancel p.receivingAddress).2 else d.registry
      | _ => d.registry := by
  unfold apply
  cases d.store.merge u with
  | error fault => rfl
  | ok q =>
    obtain ⟨o, store⟩ := q
    cases o with
    | applied p =>
      simp only [announce]
      split <;> rfl
    | unchanged p => rfl
    | stale p => rfl

theorem registry_watch (d : Desk) (address : String) (network : Network) (observer : Observer) :
    (d.watch address network observer).2.registry = d.registry ∨
    d.registry.stopped = false ∧ d.registry.entries.get? address = none ∧
      (d.watch address network observer).2.registry =
        { d.registry with
          entries := d.registry.entries.insert address d.registry.nextId
          nextId := d.registry.nextId + 1 } := by
  unfold watch
  cases h : d.registry.register address network observer with
  | error fault => exact .inl rfl
  | ok q =>
    obtain ⟨w, registry⟩ := q
    obtain ⟨hs, hnone, -, rfl⟩ := Registry.register_eq_ok.mp h
    exact .inr ⟨hs, hnone, rfl⟩

theorem watch_of_watched (d : Desk) {address : String} (network : Network) (observer : Observer)
    (hs : d.registry.stopped = false) (hw : d.registry.isWatching address = true) :
    d.watch address network observer = (.error (.alreadyWatched address), d) := by
  unfold watch Registry.register
  simp [hs, hw]

theorem watch_of_free (d : Desk) {address : String} (network : Network) (observer : Observer)
    (hs : d.registry.stopped = false) (hw : d.registry.isWatching address = false) :
    let w : Watch := { id := d.registry.nextId, address, network, observer }
    d.watch address network observer = (.ok w, { d with registry := { d.registry with
      entries := d.registry.entries.insert address d.registry.nextId
      nextId := d.registry.nextId + 1 } }.later 0 (.watch w .pausing)) := by
  unfold watch Registry.register
  rw [if_neg (by simp [hs]), if_neg (by simp [hw])]

theorem watch_of_unwatched (d : Desk) {address : String} (network : Network) (observer : Observer)
    (hs : d.registry.stopped = false) (hw : d.registry.isWatching address = false) :
    ∃ w d', d.watch address network observer = (.ok w, d') ∧ d'.registry.stopped = false ∧
      ∀ address', d'.registry.isWatching address' = true ↔
        address' = address ∨ d.registry.isWatching address' = true :=
  ⟨_, _, d.watch_of_free network observer hs hw, hs, fun _ => Registry.isWatching_insert ..⟩

theorem numbered_apply (h : d.registry.Numbered) (u : Update) :
    (d.apply u).2.registry.Numbered := by
  rw [registry_apply]
  split
  · split
    · exact h.cancel _
    · exact h
  · exact h

theorem numbered_mergeAll (h : d.registry.Numbered) (us : List Update) :
    (d.mergeAll us).registry.Numbered := by
  induction us generalizing d with
  | nil => exact h
  | cons u us ih => exact ih (numbered_apply h u)

theorem numbered_watch (h : d.registry.Numbered) (address : String) (network : Network)
    (observer : Observer) : (d.watch address network observer).2.registry.Numbered := by
  obtain heq | ⟨-, -, heq⟩ := d.registry_watch address network observer
  · rw [heq]
    exact h
  · rw [heq]
    exact h.insert address

theorem Meddled.numbered (h : d.Meddled d') (hn : d.registry.Numbered) : d'.registry.Numbered := by
  cases h with
  | watch address network observer => exact numbered_watch hn address network observer
  | cancelAddress address => exact hn.cancel address
  | cancelHandle w => exact hn.of_subset id rfl
  | stopWatches => exact hn.of_subset (fun h => by cases h) rfl
  | stop => exact hn.of_subset id rfl
  | restart => exact Registry.numbered_empty

theorem TrackStep.numbered {free : Prop} {as : List String} (hn : d.registry.Numbered)
    (h : d.TrackStep free as d') : d'.registry.Numbered := by
  cases h with
  | aside h =>
    rw [h.registry]
    exact hn
  | submit hu =>
    rw [registry_submit]
    exact hn
  | apply hu => exact numbered_apply hn _
  | mergeInbox => exact numbered_mergeAll (d := { d with inbox := [] }) hn d.inbox
  | waste address => exact hn
  | openPayment hnew hwaits hw =>
    obtain ⟨-, -, -, rfl⟩ := Registry.register_eq_ok.mp hw
    exact hn.insert _
  | rewatch hp hopen => exact numbered_watch hn _ _ _
  | endWatch hw => exact hn.release _
  | meddle hf h => exact h.numbered hn

theorem numbered_runOps (options : Options) (ops : List Op) :
    ((start options).runOps ops).registry.Numbered := by
  have hrun : ∀ (d : Desk), d.registry.Numbered → (d.runOps ops).registry.Numbered := by
    induction ops with
    | nil => exact fun d hd => hd
    | cons op ops ih =>
      intro d hd
      by_cases hjournal : op = .takeJournal
      · rw [hjournal]
        exact ih d.takeJournal.2 hd
      · have hop : d.TrackSteps True (op.handsOut d) (op.run d) :=
          trackSteps_run op (.inl trivial) hjournal
        exact ih _ (hop.always (fun hd hs => hs.numbered hd) hd)
  exact hrun _ Registry.numbered_empty

end Desk
end Clearing

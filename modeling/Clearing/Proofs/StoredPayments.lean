import Clearing.Proofs.WatchedPayments

/-!
# Stored payments read back

A row holds its status in written form, and a count out of range would be
written and then refused by every read of the row and by every listing. No
report gets one there: what a tracker makes of a depth, whatever the depth, and
what the provider's text is read as both read back, and a merge leaves a payment
with its own status or the proposed one.
-/

namespace Clearing

/-- What is proposed by those who report on payments: a tracker that has seen a
transaction, at any depth, or the provider with a text that it sent. -/
inductive Update.Reported : Update → Prop
  | sighting (id tx : String) (depth : Int) : Reported (.ofSighting id (.of tx depth))
  | delivery (id : String) {text : String} {status : Status} (h : Status.parse text = .ok status) :
      Reported (.ofWebhook id status)

theorem Update.Reported.inWindow {u : Update} (h : u.Reported) : u.status.InWindow := by
  cases h with
  | sighting id tx depth => exact Status.inWindow_ofDepth depth
  | delivery id h => exact Status.inWindow_of_parse h

/-- Payments stand under their own ids with statuses that read back. -/
structure Store.Legible (s : Store) : Prop where
  keyed : s.Keyed
  readable : ∀ {id p}, s.payments.get? id = some p → p.status.InWindow

namespace Store.Legible

variable {s s' : Store} {u : Update} {p : Payment}

theorem congr (h : s.Legible) (hp : s'.payments = s.payments) : s'.Legible where
  keyed hrow := h.keyed (hp ▸ hrow)
  readable hrow := h.readable (hp ▸ hrow)

theorem merge (h : s.Legible) (hu : u.status.InWindow) : (s.after (s.merge u)).Legible where
  keyed := Store.Keyed.merge h.keyed u
  readable {id p} hp := by
    rw [Store.get?_merge h.keyed] at hp
    obtain ⟨q, hq, rfl⟩ := Option.map_eq_some_iff.mp hp
    have hread : q.status.InWindow := h.readable hq
    split
    · rw [Payment.status_merged]
      rcases Status.next_eq_or_eq q.status u.status with hnext | hnext
      · rw [hnext]
        exact hread
      · rw [hnext]
        exact hu
    · exact hread

theorem putPayment (h : s.Legible) (hwaits : p.status = .waiting) : (s.putPayment p).Legible where
  keyed {id q} hq := by
    rw [Store.get?_putPayment] at hq
    split at hq
    · rename_i hid
      cases hq
      exact hid.symm
    · exact h.keyed hq
  readable {id q} hq := by
    rw [Store.get?_putPayment] at hq
    split at hq
    · cases hq
      rw [hwaits]
      trivial
    · exact h.readable hq

theorem removePayment (h : s.Legible) (id : String) : (s.removePayment id).2.Legible := by
  have hrow : ∀ {k p}, (s.removePayment id).2.payments.get? k = some p →
      s.payments.get? k = some p := by
    intro k p hp
    replace hp : (s.payments.erase id).get? k = some p := hp
    rw [Table.get?_erase] at hp
    split at hp
    · cases hp
    · exact hp
  exact ⟨fun hp => h.keyed (hrow hp), fun hp => h.readable (hrow hp)⟩

end Store.Legible

namespace Desk

variable {d d' : Desk} {u : Update} {p : Payment} {as : List String}

/-- Every update that the caller hands in was reported. Whatever else is asked
of the desk, bodies of any kind among it, is left open. -/
def Op.Reports : Op → Prop
  | .submit u => u.Reported
  | .update u => u.Reported
  | _ => True

/-- Payments stand under their own ids with statuses that read back, and so do
the statuses that wait to be merged. -/
structure Legible (d : Desk) : Prop where
  keyed : d.store.Keyed
  readable : ∀ {id p}, d.store.payments.get? id = some p → p.status.InWindow
  proposed : ∀ u ∈ d.inbox, u.status.InWindow

theorem watchAll_ne_store (d : Desk) (started : Nat) (ps : List Payment) (fault : StoreFault) :
    (d.watchAll started ps).1 ≠ .error (.store fault) := by
  induction ps generalizing d started with
  | nil => simp [watchAll]
  | cons p ps ih =>
    unfold watchAll
    split
    · exact ih _ _
    · exact ih _ _
    · simp

namespace Legible

theorem start (options : Options) : (start options).Legible where
  keyed h := by cases h
  readable h := by cases h
  proposed u hu := by cases hu

theorem store (h : d.Legible) : d.store.Legible := ⟨h.keyed, h.readable⟩

theorem congr (h : d.Legible) (hp : d'.store.payments = d.store.payments)
    (hi : ∀ u ∈ d'.inbox, u.status.InWindow) : d'.Legible where
  keyed hrow := h.keyed (hp ▸ hrow)
  readable hrow := h.readable (hp ▸ hrow)
  proposed := hi

/-! ### Merging -/

theorem submit (h : d.Legible) (hu : u.status.InWindow) : (d.submit u).2.Legible := by
  refine h.congr (by rw [store_submit]) fun v hv => ?_
  rcases inbox_submit d u with hi | hi
  · rw [hi] at hv
    exact h.proposed v hv
  · rw [hi, List.mem_append, List.mem_singleton] at hv
    rcases hv with hv | rfl
    · exact h.proposed v hv
    · exact hu

theorem apply (h : d.Legible) (hu : u.status.InWindow) : (d.apply u).2.Legible := by
  have hstore : (d.apply u).2.store.Legible := by
    rw [store_apply]
    exact h.store.merge hu
  exact {
    keyed := hstore.keyed
    readable := hstore.readable
    proposed := by
      rw [inbox_apply]
      exact h.proposed }

theorem mergeAll (h : d.Legible) {us : List Update} (hus : ∀ u ∈ us, u.status.InWindow) :
    (d.mergeAll us).Legible := by
  induction us generalizing d with
  | nil => exact h
  | cons u us ih =>
    exact ih (h.apply (hus u List.mem_cons_self)) fun v hv => hus v (List.mem_cons_of_mem _ hv)

theorem mergeInbox (h : d.Legible) : d.mergeInbox.Legible := by
  have hempty : Legible { d with inbox := [] } := h.congr rfl fun u hu => by cases hu
  rw [mergeInbox_eq]
  exact hempty.mergeAll h.proposed

/-! ### Every step -/

theorem putPayment (h : d.Legible) (hwaits : p.status = .waiting) :
    Legible { d with store := d.store.putPayment p } where
  keyed := (h.store.putPayment hwaits).keyed
  readable := (h.store.putPayment hwaits).readable
  proposed := h.proposed

theorem watch (h : d.Legible) (address : String) (network : Network) (observer : Observer) :
    (d.watch address network observer).2.Legible := by
  have hinbox : (d.watch address network observer).2.inbox = d.inbox := by
    unfold Desk.watch
    split <;> rfl
  exact h.congr (by rw [store_watch]) (by rw [hinbox]; exact h.proposed)

theorem trackStep (h : d.Legible) (hs : d.TrackStep False as d') : d'.Legible := by
  cases hs with
  | aside ha => exact h.congr ha.payments (by rw [ha.inbox]; exact h.proposed)
  | submit hu => exact h.submit (hu.resolve_left id)
  | apply hu => exact h.apply (hu.resolve_left id)
  | mergeInbox => exact h.mergeInbox
  | waste address => exact h
  | openPayment hnew hwaits hw => exact (h.putPayment hwaits).congr rfl h.proposed
  | rewatch hp hopen => exact h.watch _ _ _
  | endWatch hw => exact h.congr rfl h.proposed
  | meddle hf _ => exact hf.elim

/-- What callers do to the watches is nothing to the payments; a desk that stops
or restarts drops what waits. -/
theorem meddled (h : d.Legible) (hm : d.Meddled d') : d'.Legible := by
  cases hm with
  | watch address network observer =>
    exact h.watch address network observer
  | cancelAddress | cancelHandle | stopWatches => exact h.congr rfl h.proposed
  | stop | restart => exact h.congr rfl fun u hu => by cases hu

/-! ### Every run -/

theorem run (h : d.Legible) {op : Op} (hop : op.Reports) : (op.run d).Legible := by
  have hrest : op.SparesWatches → op ≠ .takeJournal → (op.run d).Legible := fun hspares hjournal =>
    (trackSteps_run op (.inr hspares) hjournal).always (fun h hs => h.trackStep hs) h
  cases op with
  | submit u | update u =>
    have hu : u.status.InWindow := hop.inWindow
    exact hrest hu (by simp)
  | watch address network observer => exact h.meddled (.watch address network observer)
  | cancelAddress address => exact h.meddled (.cancelAddress address)
  | cancelHandle w => exact h.meddled (.cancelHandle w)
  | stopWatches => exact h.meddled .stopWatches
  | stop => exact h.meddled .stop
  | restart => exact h.meddled .restart
  | takeJournal => exact h.congr rfl h.proposed
  | _ => exact hrest trivial (by simp)

theorem runOps (h : d.Legible) {ops : List Op} (hops : ∀ op ∈ ops, op.Reports) :
    (d.runOps ops).Legible := by
  induction ops generalizing d with
  | nil => exact h
  | cons op ops ih =>
    exact ih (h.run (hops op List.mem_cons_self)) fun o ho => hops o (List.mem_cons_of_mem _ ho)

/-! ### Reading -/

theorem reread (h : d.Legible) {id : String} (hp : d.store.payments.get? id = some p) :
    p.reread = .ok p := by
  rw [Payment.reread_eq, if_pos (h.readable hp)]

theorem payment_eq (h : d.Legible) (id : String) :
    d.store.payment id =
      match d.store.payments.get? id with
      | some p => .ok p
      | none => .error (.notFound (Store.paymentName id)) := by
  unfold Store.payment
  cases hp : d.store.payments.get? id with
  | none => rfl
  | some p => exact h.reread hp

theorem payment_ne_unreadable (h : d.Legible) (id reason : String) :
    d.store.payment id ≠ .error (.unreadable reason) := by
  rw [h.payment_eq]
  split <;> simp

theorem paymentStatus_ne_unreadable (h : d.Legible) (id reason : String) :
    (d.paymentStatus id).1 ≠ .error (.store (.unreadable reason)) := by
  unfold paymentStatus
  rw [h.payment_eq]
  cases d.store.payments.get? id with
  | none => simp [ServiceFault.ofStore]
  | some p =>
    simp only
    split
    · simp
    · split <;> simp

theorem resumeWatches_ne_unreadable (h : d.Legible) (reason : String) :
    d.resumeWatches.1 ≠ .error (.store (.unreadable reason)) := by
  unfold resumeWatches
  rw [Store.unfinishedPayments_of_readable h.readable]
  exact watchAll_ne_store _ _ _ _

theorem resume_ne_unreadable (h : d.Legible) (reason : String) :
    d.resume.1 ≠ .error (.store (.unreadable reason)) := by
  have hwatches := h.resumeWatches_ne_unreadable reason
  unfold resume
  split
  · rename_i fault d' hfault
    rw [hfault] at hwatches
    simpa using hwatches
  · simp

end Legible

/-- **No report makes a stored payment unreadable.** Let a desk be asked for
anything at all from its start, with trackers that report any depth and with any
deliveries; also in the middle of merging what was reported, every row reads back as
the payment that was written, and nothing that reads payments, from the status query
to taking up the open work, comes upon a row that does not read. -/
theorem payments_read_back (options : Options) (ops : List Op) (hops : ∀ op ∈ ops, op.Reports)
    (us : List Update) (hus : ∀ u ∈ us, u.Reported) :
    let d := ((start options).runOps ops).mergeAll us
    (∀ id p, d.store.payments.get? id = some p →
      p.reread = .ok p ∧ d.store.payment id = .ok p) ∧
    (∀ id reason, d.store.payment id ≠ .error (.unreadable reason) ∧
      (d.paymentStatus id).1 ≠ .error (.store (.unreadable reason))) ∧
    d.store.unfinishedPayments =
      .ok (d.store.payments.rows.filter fun p => !p.status.isTerminal) ∧
    ∀ reason, d.resumeWatches.1 ≠ .error (.store (.unreadable reason)) ∧
      d.resume.1 ≠ .error (.store (.unreadable reason)) := by
  intro d
  have h : d.Legible :=
    ((Legible.start options).runOps hops).mergeAll fun u hu => (hus u hu).inWindow
  refine ⟨fun id p hp => ⟨h.reread hp, ?_⟩, fun id reason => ?_,
    Store.unfinishedPayments_of_readable h.readable, fun reason => ?_⟩
  · rw [h.payment_eq, hp]
  · exact ⟨h.payment_ne_unreadable id reason, h.paymentStatus_ne_unreadable id reason⟩
  · exact ⟨h.resumeWatches_ne_unreadable reason, h.resume_ne_unreadable reason⟩

/-- A payment is opened, reported at the lowest depth there is, and then by the
provider with a count. -/
def lowestDepth : List Op :=
  [.script { Node.Script.empty with addresses := ["a"] }, .createPayment "p" anyRequest,
    .update (.ofSighting "p" (.of World.firstTx (-2 ^ 63))),
    .update (.ofWebhook "p" (.confirming 3))]

theorem payments_read_back_highestDepth :
    ∃ p, (((start (ofStore .empty).options).runOps lowestDepth).mergeAll
        [.ofSighting "p" (.of World.firstTx (2 ^ 63 - 1))]).store.payment "p" = .ok p ∧
      p.status = .confirmed ∧ p.confirmations = 2 ^ 63 - 1 := by
  have hparse : Status.parse "pending_confirmation (3/6)" = .ok (.confirming 3) :=
    (Status.parse_text (.confirming 3)).trans (if_pos (by decide))
  have hops : ∀ op ∈ lowestDepth, op.Reports := by
    simp only [lowestDepth, List.forall_mem_cons, List.not_mem_nil, false_imp_iff, implies_true,
      and_true]
    exact ⟨trivial, trivial, .sighting .., .delivery "p" hparse⟩
  obtain ⟨hrows, -⟩ := payments_read_back (ofStore .empty).options lowestDepth hops
    [.ofSighting "p" (.of World.firstTx (2 ^ 63 - 1))]
    (List.forall_mem_singleton.mpr (.sighting ..))
  exact ⟨_, (hrows "p" _ rfl).2, rfl, rfl⟩

end Desk
end Clearing

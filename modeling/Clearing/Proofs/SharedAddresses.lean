import Clearing.Proofs.WatchedPayments

/-!
# Payments at one address

The watch that a merge cancels is found by the address of the payment, not by
the payment: it is the one that stands there at the time, whoever it was
started for. If the node hands out an address again after the payment there was
confirmed, the watch of the new payment goes when the provider completes the
old one.
-/

namespace Clearing.Desk

variable {d : Desk} {u : Update}

theorem rows_apply (hk : d.store.Keyed) {id : String} (hid : id ≠ u.paymentId) :
    (d.apply u).2.store.payments.get? id = d.store.payments.get? id := by
  rw [store_apply, Store.get?_merge hk]
  cases d.store.payments.get? id with
  | none => rfl
  | some p => rw [Option.map_some, if_neg fun h => hid h.1]

/-- An active watch outlives a merge, unless it stands at the address of the
payment that the merge takes to a status which ends watches. -/
theorem active_apply (hn : d.registry.Numbered) {address : String} {id : Nat}
    (hactive : d.registry.Active address id) :
    (d.apply u).2.registry.Active address id ↔
      ¬∃ p, (d.apply u).1 = .ok (.applied p) ∧ p.status.endsWatch = true ∧
        p.receivingAddress = address := by
  rw [registry_apply]
  split
  · rename_i p hp
    split
    · rename_i hends
      rw [Registry.active_cancel hn]
      constructor
      · rintro ⟨-, hne⟩ ⟨q, hq, -, haddress⟩
        rw [hp] at hq
        cases hq
        exact hne haddress.symm
      · exact fun hnone => ⟨hactive, fun haddress => hnone ⟨p, hp, hends, haddress.symm⟩⟩
    · rename_i hopen
      refine iff_of_true hactive ?_
      rintro ⟨q, hq, hends, -⟩
      rw [hp] at hq
      cases hq
      exact hopen hends
  · rename_i hother
    exact iff_of_true hactive fun ⟨p, hp, _⟩ => hother p hp

theorem receivingAddress_applied {p q : Payment} (hp : d.store.payments.get? u.paymentId = some p)
    (hq : (d.apply u).1 = .ok (.applied q)) : q.receivingAddress = p.receivingAddress := by
  unfold apply at hq
  cases hm : d.store.merge u with
  | error fault =>
    rw [hm] at hq
    cases hq
  | ok r =>
    obtain ⟨o, store⟩ := r
    obtain ⟨p', hp', ho, -⟩ := Store.merge_eq_ok hm
    have hsame : p' = p := Option.some.inj ((Store.payment_eq_ok.mp hp').1.symm.trans hp)
    rw [hm] at hq
    cases hq
    rw [← hsame, ← Payment.receivingAddress_merged p' u, ← Payment.payment_outcome p' u, ← ho]
    rfl

theorem keyed_reached (options : Options) (ops : List Op) (us : List Update) :
    (((start options).runOps ops).mergeAll us).store.Keyed := by
  have hleads := (leads_runOps (start options) ops).append (leads_mergeAll _ us)
  have hk : (start options).store.Keyed := fun hp => by cases hp
  intro id p hp
  exact (hleads.progresses hk).1 hp

/-- **A merge touches one payment and the watch at one address.** However a desk was
used before, and also in the middle of merging, an update leaves the rows of all
other payments as they are, and cancels the watch at the address of the payment that
it takes to a status which ends watches, and no other. -/
theorem apply_frame (options : Options) (ops : List Op) (us : List Update) (u : Update) :
    let d := ((start options).runOps ops).mergeAll us
    (∀ id, id ≠ u.paymentId →
      (d.apply u).2.store.payments.get? id = d.store.payments.get? id) ∧
    (∀ address n, d.registry.Active address n →
      ((d.apply u).2.registry.Active address n ↔
        ¬∃ p, (d.apply u).1 = .ok (.applied p) ∧ p.status.endsWatch = true ∧
          p.receivingAddress = address)) ∧
    ∀ p id q n, d.store.payments.get? u.paymentId = some p →
      d.store.payments.get? id = some q → p.receivingAddress ≠ q.receivingAddress →
      d.registry.Active q.receivingAddress n →
      (d.apply u).2.registry.Active q.receivingAddress n := by
  intro d
  have hk : d.store.Keyed := keyed_reached options ops us
  have hn : d.registry.Numbered := numbered_mergeAll (numbered_runOps options ops) us
  refine ⟨fun id hid => rows_apply hk hid, fun address n hactive => active_apply hn hactive,
    fun p id q n hp hq hne hactive => ?_⟩
  rw [active_apply hn hactive]
  rintro ⟨p', hp', -, haddress⟩
  exact hne ((receivingAddress_applied hp hp').symm.trans haddress)

theorem apply_frame_apart :
    let d := (start (ofStore .empty).options).runOps
      [.script { Node.Script.empty with addresses := ["a", "b"] },
        .createPayment "p" anyRequest, .createPayment "q" anyRequest]
    (d.apply (.ofSighting "p" (.of World.firstTx 7))).2.registry.Active "b" 1 :=
  (apply_frame (ofStore .empty).options
    [.script { Node.Script.empty with addresses := ["a", "b"] },
      .createPayment "p" anyRequest, .createPayment "q" anyRequest] []
    (.ofSighting "p" (.of World.firstTx 7))).2.2
      _ "q" _ 1 rfl rfl (by decide) (by decide)

/-- The node hands out one address twice: for a payment that is then confirmed,
and for the next one. -/
def addressReused : List Op :=
  [.script { Node.Script.empty with addresses := ["a", "a"] },
    .createPayment "p" anyRequest, .update (.ofSighting "p" (.of World.firstTx 7)),
    .createPayment "q" anyRequest]

/-- Updates of a payment do not always leave the watches of others alone: here
completing the one payment cancels the watch that was started for the other. -/
theorem watch_lost_at_shared_address :
    ¬∀ (options : Options) (ops : List Op) (u : Update) (id : String) (q : Payment) (w : Watch)
        (t : Task),
      ((start options).runOps ops).store.payments.get? id = some q → id ≠ u.paymentId →
      t ∈ ((start options).runOps ops).tasks → t.job = .watch w .pausing →
      w.observer = .payment id →
      ((start options).runOps ops).registry.Active w.address w.id →
      (((start options).runOps ops).apply u).2.registry.Active w.address w.id := by
  intro h
  have hlost := h (ofStore .empty).options addressReused (.ofWebhook "p" .completed) "q" _
    { id := 1, address := "a", network := (ofStore .empty).options.network
      observer := .payment "q" } _ rfl (by decide) (.tail _ (.head _)) rfl rfl (by decide)
  revert hlost
  decide

end Clearing.Desk

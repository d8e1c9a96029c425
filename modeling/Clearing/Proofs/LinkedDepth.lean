import Clearing.Proofs.MergeOrder
import Mathlib.Data.List.Induction

/-!
# The link of a payment and its depth

A sighting brings a transaction, its depth and the status of that depth, and a
merge takes all three or none of them; a delivery of the provider brings a
status alone. Another transaction takes the link only by ranking strictly
higher, so two that are seen at one depth do not take it from each other in
turn.
-/

namespace Clearing

/-! ### What a report does to a payment -/

namespace Payment

variable {p : Payment} {id tx : String} {depth : Int} {status : Status}

/-- A merge writes all that the proposal says, or nothing; another transaction
than the linked one is written only with a status that ranks higher. -/
theorem merged_eq_or_eq (p : Payment) (u : Update) :
    p.merged u = p ∨ p.merged u = p.revised u ∧ p.status.accepts u.status = true ∧
      (p.otherTx u = true → p.status < u.status) := by
  unfold merged
  cases hacc : p.status.accepts u.status with
  | false => exact .inl rfl
  | true =>
    rw [Bool.not_true, if_neg Bool.false_ne_true]
    by_cases hother : (p.otherTx u && u.status.rankLe p.status) = true
    · exact .inl (if_pos hother)
    · refine .inr ⟨if_neg hother, rfl, fun h => ?_⟩
      rw [Status.lt_iff_not_le, ← Status.rankLe_iff]
      rw [h, Bool.true_and] at hother
      exact hother

theorem merged_ofSighting (p : Payment) (id tx : String) (depth : Int) :
    p.merged (.ofSighting id (.of tx depth)) = p ∨
      p.merged (.ofSighting id (.of tx depth)) =
          { p with status := .ofDepth depth, linkedTx := some tx, confirmations := depth } ∧
        (∀ linked, p.linkedTx = some linked → linked ≠ tx → p.status < .ofDepth depth) := by
  obtain hsame | ⟨hrevised, -, hother⟩ := p.merged_eq_or_eq (.ofSighting id (.of tx depth))
  · exact .inl hsame
  · refine .inr ⟨hrevised, fun linked hlinked hne => hother ?_⟩
    unfold otherTx Update.ofSighting
    rw [hlinked]
    exact bne_iff_ne.mpr hne

theorem merged_ofWebhook (p : Payment) (id : String) (status : Status) :
    p.merged (.ofWebhook id status) = p ∨
      p.merged (.ofWebhook id status) = { p with status } ∧
        p.outcome (.ofWebhook id status) = .applied { p with status } := by
  obtain hsame | ⟨hrevised, hacc, -⟩ := p.merged_eq_or_eq (.ofWebhook id status)
  · exact .inl hsame
  · replace hrevised : p.merged (.ofWebhook id status) = { p with status } := hrevised
    replace hacc : p.status.accepts status = true := hacc
    by_cases hstatus : status = p.status
    · left
      rw [hrevised, hstatus]
    · refine .inr ⟨hrevised, ?_⟩
      unfold outcome
      rw [hrevised]
      simp only [Update.ofWebhook, hacc, Bool.not_true, Bool.false_eq_true, if_false]
      exact if_neg hstatus

end Payment

/-! ### Runs of reports -/

inductive Report
  | sighting (payment tx : String) (depth : Int)
  | delivery (payment : String) (status : Status)

def Report.payment : Report → String
  | .sighting payment _ _ => payment
  | .delivery payment _ => payment

def Report.update : Report → Update
  | .sighting payment tx depth => .ofSighting payment (.of tx depth)
  | .delivery payment status => .ofWebhook payment status

theorem Report.paymentId_update (r : Report) : r.update.paymentId = r.payment := by
  cases r <;> rfl

namespace Desk

variable {d : Desk} {id : String} {p : Payment}

def afterReports (d : Desk) (reports : List Report) : Desk := d.mergeAll (reports.map Report.update)

/-- Among the reports is a delivery for the payment `id` that was applied. -/
def DeliveryApplied (d : Desk) (id : String) (reports : List Report) : Prop :=
  ∃ before status after q, reports = before ++ .delivery id status :: after ∧
    ((d.afterReports before).apply (.ofWebhook id status)).1 = .ok (.applied q)

theorem DeliveryApplied.append {reports : List Report} (h : d.DeliveryApplied id reports)
    (r : Report) : d.DeliveryApplied id (reports ++ [r]) := by
  obtain ⟨before, status, after, q, rfl, happlied⟩ := h
  exact ⟨before, status, after ++ [r], q, by simp, happlied⟩

theorem afterReports_concat (d : Desk) (reports : List Report) (r : Report) :
    d.afterReports (reports ++ [r]) = ((d.afterReports reports).apply r.update).2 := by
  unfold afterReports mergeAll
  rw [List.map_append, List.foldl_append]
  rfl

theorem keyed_afterReports (hkeyed : d.store.Keyed) (reports : List Report) :
    (d.afterReports reports).store.Keyed := by
  induction reports using List.reverseRecOn with
  | nil => exact hkeyed
  | append_singleton reports r ih =>
    rw [afterReports_concat]
    exact keyed_apply ih _

theorem get?_afterReports_concat (hkeyed : d.store.Keyed) (reports : List Report) (r : Report)
    (id : String) :
    (d.afterReports (reports ++ [r])).store.payments.get? id =
      ((d.afterReports reports).store.payments.get? id).map fun p =>
        if id = r.payment ∧ p.status.InWindow then p.merged r.update else p := by
  rw [afterReports_concat, store_apply,
    Store.get?_merge (keyed_afterReports hkeyed reports) r.update, r.paymentId_update]

end Desk

/-- The link of a payment and its depth were reported together, and the status
is that of the depth unless a delivery was applied. -/
structure Payment.Coherent (q : Payment) (d : Desk) (id : String) (reports : List Report) :
    Prop where
  sighted : ∀ tx, q.linkedTx = some tx → .sighting id tx q.confirmations ∈ reports
  classified : ∀ tx, q.linkedTx = some tx → ¬d.DeliveryApplied id reports →
    q.status = .ofDepth q.confirmations

namespace Payment.Coherent

variable {d : Desk} {id : String} {q : Payment} {reports : List Report}

theorem append (h : q.Coherent d id reports) (r : Report) : q.Coherent d id (reports ++ [r]) where
  sighted tx htx := List.mem_append_left _ (h.sighted tx htx)
  classified tx htx happlied := h.classified tx htx fun hbefore => happlied (hbefore.append r)

theorem of_sighting {tx : String} {depth : Int} :
    Coherent { q with status := .ofDepth depth, linkedTx := some tx, confirmations := depth } d id
      (reports ++ [.sighting id tx depth]) where
  sighted tx' htx' := by
    cases htx'
    exact List.mem_append_right _ List.mem_cons_self
  classified _ _ _ := rfl

theorem of_delivery (h : q.Coherent d id reports) {status : Status}
    (happlied : d.DeliveryApplied id (reports ++ [.delivery id status])) :
    Coherent { q with status } d id (reports ++ [.delivery id status]) where
  sighted tx htx := List.mem_append_left _ (h.sighted tx htx)
  classified _ _ hnone := absurd happlied hnone

end Payment.Coherent

namespace Desk

variable {d : Desk} {id : String} {p q : Payment}

theorem deliveryApplied_concat {reports : List Report} {status : Status} {q' : Payment}
    (hrow : (d.afterReports reports).store.payments.get? id = some q) (hread : q.status.InWindow)
    (houtcome : q.outcome (.ofWebhook id status) = .applied q') :
    d.DeliveryApplied id (reports ++ [.delivery id status]) := by
  refine ⟨reports, status, [], q', rfl, ?_⟩
  have hp : (d.afterReports reports).store.payment (Update.ofWebhook id status).paymentId = .ok q :=
    Store.payment_eq_ok.mpr ⟨hrow, hread⟩
  unfold apply Store.merge
  rw [hp, ← houtcome]

theorem coherent_concat (hkeyed : d.store.Keyed) {reports : List Report}
    (hrow : (d.afterReports reports).store.payments.get? id = some q)
    (h : q.Coherent d id reports) (r : Report) :
    ∃ q', (d.afterReports (reports ++ [r])).store.payments.get? id = some q' ∧
      q'.Coherent d id (reports ++ [r]) := by
  have hrow' := get?_afterReports_concat hkeyed reports r id
  rw [hrow, Option.map_some] at hrow'
  refine ⟨_, hrow', ?_⟩
  split
  · rename_i hown
    obtain ⟨rfl, hread⟩ := hown
    cases r with
    | sighting id tx depth =>
      obtain hsame | ⟨hmerged, -⟩ := q.merged_ofSighting id tx depth
      · rw [Report.update, hsame]
        exact h.append _
      · rw [Report.update, hmerged]
        exact .of_sighting
    | delivery id status =>
      obtain hsame | ⟨hmerged, houtcome⟩ := q.merged_ofWebhook id status
      · rw [Report.update, hsame]
        exact h.append _
      · rw [Report.update, hmerged]
        exact h.of_delivery (deliveryApplied_concat hrow hread houtcome)
  · exact h.append r

theorem coherent_afterReports (hkeyed : d.store.Keyed) (hp : d.store.payments.get? id = some p)
    (hnew : p.linkedTx = none) (reports : List Report) :
    ∃ q, (d.afterReports reports).store.payments.get? id = some q ∧ q.Coherent d id reports := by
  induction reports using List.reverseRecOn with
  | nil =>
    have hunlinked : ∀ tx, p.linkedTx ≠ some tx := fun tx => by rw [hnew]; simp
    exact ⟨p, hp, fun tx htx => absurd htx (hunlinked tx), fun tx htx => absurd htx (hunlinked tx)⟩
  | append_singleton reports r ih =>
    obtain ⟨q, hq, hcoherent⟩ := ih
    exact coherent_concat hkeyed hq hcoherent r

theorem relinked_concat (hkeyed : d.store.Keyed) {reports : List Report} {linked : String}
    (hrow : (d.afterReports reports).store.payments.get? id = some q)
    (hlinked : q.linkedTx = some linked) (r : Report) :
    ∃ q', (d.afterReports (reports ++ [r])).store.payments.get? id = some q' ∧
      (q'.linkedTx = some linked ∨ ∃ tx depth, r = .sighting id tx depth ∧
        q'.linkedTx = some tx ∧ q.status < q'.status) := by
  have hrow' := get?_afterReports_concat hkeyed reports r id
  rw [hrow, Option.map_some] at hrow'
  refine ⟨_, hrow', ?_⟩
  split
  · rename_i hown
    obtain ⟨rfl, -⟩ := hown
    cases r with
    | sighting id tx depth =>
      obtain hsame | ⟨hmerged, hhigher⟩ := q.merged_ofSighting id tx depth
      · exact .inl (by rw [Report.update, hsame, hlinked])
      · rw [Report.update, hmerged]
        by_cases htx : linked = tx
        · exact .inl (by rw [htx])
        · exact .inr ⟨tx, depth, rfl, rfl, hhigher linked hlinked htx⟩
    | delivery id status =>
      obtain hsame | ⟨hmerged, -⟩ := q.merged_ofWebhook id status
      · exact .inl (by rw [Report.update, hsame, hlinked])
      · exact .inl (by rw [Report.update, hmerged, hlinked])
  · exact .inl hlinked

/-- **The link and its depth are coherent and do not flap.** Take a payment with no
transaction linked yet and any reports, for this payment and for others. A
transaction that is linked was seen with the depth that is stored; if no delivery
was applied, the status is that of the depth. One report more never takes the link
away, and gives it to another transaction only by seeing that one at a depth whose
status ranks strictly higher. -/
theorem link_coherent (d : Desk) (hkeyed : d.store.Keyed) {id : String} {p : Payment}
    (hp : d.store.payments.get? id = some p) (hnew : p.linkedTx = none) (reports : List Report) :
    ∃ q, (d.afterReports reports).store.payments.get? id = some q ∧
      (∀ tx, q.linkedTx = some tx → .sighting id tx q.confirmations ∈ reports) ∧
      (q.linkedTx.isSome → ¬d.DeliveryApplied id reports → q.status = .ofDepth q.confirmations) ∧
      ∀ r, ∃ q', (d.afterReports (reports ++ [r])).store.payments.get? id = some q' ∧
        (q.linkedTx.isSome → q'.linkedTx.isSome) ∧
        ∀ linked tx, q.linkedTx = some linked → q'.linkedTx = some tx → tx ≠ linked →
          q.status < q'.status ∧ ∃ depth, r = .sighting id tx depth := by
  obtain ⟨q, hq, hcoherent⟩ := coherent_afterReports hkeyed hp hnew reports
  refine ⟨q, hq, hcoherent.sighted, fun hlinked hnone => ?_, fun r => ?_⟩
  · obtain ⟨tx, htx⟩ := Option.isSome_iff_exists.mp hlinked
    exact hcoherent.classified tx htx hnone
  · cases hlinked : q.linkedTx with
    | none =>
      obtain ⟨q', hq', -⟩ := coherent_concat hkeyed hq hcoherent r
      exact ⟨q', hq', by simp, by simp⟩
    | some linked =>
      obtain ⟨q', hq', hkept | ⟨tx, depth, hr, htx, hhigher⟩⟩ := relinked_concat hkeyed hq hlinked r
      · refine ⟨q', hq', by simp [hkept], fun linked' tx hlinked' htx hne => ?_⟩
        cases hlinked'
        rw [hkept] at htx
        exact absurd (Option.some.inj htx).symm hne
      · refine ⟨q', hq', by simp [htx], fun linked' tx' hlinked' htx' hne => ⟨hhigher, depth, ?_⟩⟩
        rw [htx] at htx'
        rw [hr, Option.some.inj htx']

/-- Two transactions are seen at one depth in turn; the link stays with the
first, and goes to the second when that is seen a block deeper. -/
def turnsTaken : List Report :=
  [.sighting "p" World.firstTx 2, .sighting "p" World.secondTx 2, .sighting "p" World.firstTx 2,
    .sighting "p" World.secondTx 2]

theorem link_coherent_turnsTaken :
    ∃ q, ((ofStore (.ofPayment firstPayment)).afterReports turnsTaken).store.payments.get? "p" =
        some q ∧ q.linkedTx = some World.firstTx ∧ q.status = .confirming 2 ∧
      ∃ q', ((ofStore (.ofPayment firstPayment)).afterReports
          (turnsTaken ++ [.sighting "p" World.secondTx 3])).store.payments.get? "p" = some q' ∧
        q'.linkedTx = some World.secondTx ∧ q.status < q'.status := by
  obtain ⟨q, hq, -, hclassified, hmore⟩ := link_coherent (ofStore (.ofPayment firstPayment))
    (Store.keyed_ofPayment _) (Store.get?_ofPayment _ "p") rfl turnsTaken
  obtain ⟨q', hq', -, hhigher⟩ := hmore (.sighting "p" World.secondTx 3)
  have hlink : q.linkedTx = some World.firstTx ∧ q.status = .confirming 2 := by
    cases hq
    exact ⟨rfl, rfl⟩
  have hlink' : q'.linkedTx = some World.secondTx := by
    cases hq'
    rfl
  exact ⟨q, hq, hlink.1, hlink.2, q', hq', hlink',
    (hhigher _ _ hlink.1 hlink' (by decide)).1⟩

end Desk
end Clearing

import Clearing.Proofs.MergeOrder

/-!
# What an update is answered

The answer to an update carries the payment as it is stored from then on. Stale
and applied speak of the row as well as of the status. The third answer,
unchanged, speaks of the status alone: a payment that stays confirmed while its
depth grows is written anew, and so is one that had no linked transaction and
now has one.
-/

namespace Clearing

namespace Payment

variable {p : Payment} {u : Update}

/-- An update brings no transaction but the linked one, and no depth but the
stored one. -/
def RepeatedBy (p : Payment) (u : Update) : Prop :=
  (∀ tx, u.txId = some tx → p.linkedTx = some tx) ∧
    ∀ depth, u.depth = some depth → p.confirmations = depth

theorem revised_eq_self_iff :
    p.revised u = p ↔ u.status = p.status ∧ p.RepeatedBy u := by
  have hfields : p.revised u = p ↔ u.status = p.status ∧
      (u.txId.orElse fun _ => p.linkedTx) = p.linkedTx ∧
        u.depth.getD p.confirmations = p.confirmations := by
    obtain ⟨id, owner, amount, currency, status, url, address, wallet, tx, depth⟩ := p
    simp [revised]
  have htx : (u.txId.orElse fun _ => p.linkedTx) = p.linkedTx ↔
      ∀ tx, u.txId = some tx → p.linkedTx = some tx := by
    cases u.txId with
    | none => simp
    | some tx => simp [eq_comm]
  have hdepth : u.depth.getD p.confirmations = p.confirmations ↔
      ∀ depth, u.depth = some depth → p.confirmations = depth := by
    cases u.depth with
    | none => simp
    | some depth => simp [eq_comm]
  rw [hfields, htx, hdepth]
  rfl

theorem merged_eq_self_iff (hacc : p.status.accepts u.status = true)
    (hsame : (p.merged u).status = p.status) :
    p.merged u = p ↔ p.otherTx u = true ∨ p.RepeatedBy u := by
  have hstatus : u.status = p.status := by
    rw [status_merged] at hsame
    unfold Status.next at hsame
    rwa [if_pos hacc] at hsame
  have hrank : u.status.rankLe p.status = true := by
    rw [hstatus]
    exact Status.rankLe_iff.mpr (Status.le_refl _)
  unfold merged
  rw [if_neg (by simp [hacc]), hrank, Bool.and_true]
  by_cases hother : p.otherTx u = true
  · simp [hother]
  · rw [if_neg hother, revised_eq_self_iff]
    simp [hother, hstatus]

theorem outcome_cases_of_merged (p : Payment) (u : Update) :
    (p.status.accepts u.status = false ∧ p.outcome u = .stale p ∧ p.merged u = p) ∨
    (p.status.accepts u.status = true ∧ (p.merged u).status = p.status ∧
      p.outcome u = .unchanged (p.merged u)) ∨
    (p.status.accepts u.status = true ∧ (p.merged u).status ≠ p.status ∧
      p.outcome u = .applied (p.merged u)) := by
  unfold outcome
  by_cases hacc : p.status.accepts u.status = true
  · by_cases hsame : (p.merged u).status = p.status
    · simp [hacc, hsame]
    · simp [hacc, hsame]
  · have hstays : p.merged u = p := by simp [merged, hacc]
    simp [hacc, hstays]

end Payment

namespace Desk

theorem update_of_payment (d : Desk) (hkeyed : d.store.Keyed) (hrunning : d.stopped = false)
    (u : Update) {p : Payment} (hp : d.store.payment u.paymentId = .ok p) :
    (d.update u).1 = .ok (p.outcome u) ∧
      (d.update u).2.store.payments.get? u.paymentId = some (p.merged u) := by
  obtain ⟨hrow, hread⟩ := Store.payment_eq_ok.mp hp
  have hupdate : d.update u = d.apply u := by simp [update, hrunning]
  rw [hupdate, store_apply, Store.get?_merge hkeyed, hrow, Option.map_some, if_pos ⟨rfl, hread⟩]
  refine ⟨?_, rfl⟩
  unfold apply Store.merge
  rw [hp]

/-- **What an answer says of the store.** An update of a payment that reads back is
answered, and the answer carries the row as it is from then on. It is stale exactly
if the status may not be replaced by the proposed one, and then the row is as it
was; it is applied exactly if the row has a new status. If it is unchanged, the row
is as it was exactly if the update came with another transaction than the linked
one, or brought neither a transaction nor a depth that was not stored. -/
theorem outcome_of_update (d : Desk) (hkeyed : d.store.Keyed) (hrunning : d.stopped = false)
    (u : Update) {p : Payment} (hp : d.store.payment u.paymentId = .ok p) :
    ∃ o, (d.update u).1 = .ok o ∧
      (d.update u).2.store.payments.get? u.paymentId = some o.payment ∧
      (o = .stale o.payment ↔ p.status.accepts u.status = false) ∧
      (o = .applied o.payment ↔ o.payment.status ≠ p.status) ∧
      (o = .stale o.payment → o.payment = p) ∧
      (o = .unchanged o.payment → o.payment.status = p.status ∧
        (o.payment = p ↔ p.otherTx u = true ∨ p.RepeatedBy u)) := by
  obtain ⟨hanswer, hrow⟩ := update_of_payment d hkeyed hrunning u hp
  refine ⟨p.outcome u, hanswer, ?_, ?_⟩
  · rw [p.payment_outcome u, hrow]
  · obtain ⟨hacc, ho, -⟩ | ⟨hacc, hsame, ho⟩ | ⟨hacc, hnew, ho⟩ := p.outcome_cases_of_merged u
    · simp [ho, hacc, Outcome.payment]
    · simp only [ho, hacc, Outcome.payment, hsame, reduceCtorEq, ne_eq,
        not_true_eq_false, Bool.true_eq_false, false_imp_iff, true_imp_iff, true_and]
      exact Payment.merged_eq_self_iff hacc hsame
    · simp [ho, hacc, Outcome.payment, hnew]

def confirmedPayment : Payment :=
  firstPayment.merged (.ofSighting "p" (.of World.firstTx 7))

theorem payment_confirmed :
    (ofStore (.ofPayment confirmedPayment)).store.payment "p" = .ok confirmedPayment :=
  Store.payment_ofPayment (p := confirmedPayment) trivial

/-- Another transaction, seen deeper, is no match for a payment that is confirmed
already: the answer is that nothing changed, and so it is. -/
theorem outcome_of_update_otherTx :
    ((ofStore (.ofPayment confirmedPayment)).update
        (.ofSighting "p" (.of World.secondTx 9))).1 = .ok (.unchanged confirmedPayment) := by
  obtain ⟨o, hanswer, -, hstale, happlied, -, hunchanged⟩ :=
    outcome_of_update (ofStore (.ofPayment confirmedPayment)) (Store.keyed_ofPayment _) rfl
      (.ofSighting "p" (.of World.secondTx 9)) payment_confirmed
  have ho : o = .unchanged o.payment := by
    have houtcome := (update_of_payment _ (Store.keyed_ofPayment _) rfl
      (.ofSighting "p" (.of World.secondTx 9)) payment_confirmed).1
    have hkeeps : confirmedPayment.outcome (.ofSighting "p" (.of World.secondTx 9)) =
        .unchanged confirmedPayment := by decide
    rw [Except.ok.inj (hanswer.symm.trans houtcome), hkeeps]
    rfl
  rw [hanswer, ho, (hunchanged ho).2.mpr (.inl rfl)]

/-- An answer of unchanged does not say that the row is as it was: a payment that
is confirmed at depth 7 and seen again at depth 8 is answered so, and is stored
with the new depth. -/
theorem rewritten_while_unchanged :
    ¬ ∀ (d : Desk) (u : Update) (p : Payment), d.store.Keyed → d.stopped = false →
      d.store.payment u.paymentId = .ok p →
      ∃ o, (d.update u).1 = .ok o ∧
        (d.update u).2.store.payments.get? u.paymentId = some o.payment ∧
        (o = .stale o.payment ↔ p.status.accepts u.status = false) ∧
        (o = .applied o.payment ↔ o.payment.status ≠ p.status) ∧
        (o = .stale o.payment ∨ o = .unchanged o.payment → o.payment = p) := by
  intro h
  obtain ⟨o, hanswer, -, -, -, hsame⟩ :=
    h (ofStore (.ofPayment confirmedPayment)) (.ofSighting "p" (.of World.firstTx 8))
      confirmedPayment (Store.keyed_ofPayment _) rfl payment_confirmed
  have houtcome := (update_of_payment _ (Store.keyed_ofPayment _) rfl
    (.ofSighting "p" (.of World.firstTx 8)) payment_confirmed).1
  have hgrows : confirmedPayment.outcome (.ofSighting "p" (.of World.firstTx 8)) =
      .unchanged { confirmedPayment with confirmations := 8 } := by decide
  have ho : o = .unchanged { confirmedPayment with confirmations := 8 } := by
    rw [Except.ok.inj (hanswer.symm.trans houtcome), hgrows]
  rw [ho] at hsame
  exact absurd (congrArg Payment.confirmations (hsame (.inr rfl))) (by decide)

end Desk
end Clearing

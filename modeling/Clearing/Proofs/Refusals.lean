import Clearing.Proofs.Restart
import Clearing.Proofs.TrackSteps

/-!
# What is refused changes nothing

Most operations are refused before they write, or within the one transaction
that writes. A payment is the exception: its row is stored first, and taken out
again if its address is not watched. All that a refused operation may leave
behind is an address the node was asked for.
-/

namespace Clearing.Desk

/-- The desk `d'` is `d`, or is `d` after it has asked the node for an address
and done nothing with it. -/
def Spent (d d' : Desk) : Prop :=
  d' = d ∨ d' = { d with node := d.node.generate.2 }.noteCall .generate

variable (d : Desk)

theorem transact_of_error {ε α : Type} {run : Store → Except ε (α × Store)}
    (h : (d.transact run).1.isOk = false) : (d.transact run).2 = d := by
  unfold transact at *
  split
  · rfl
  · rename_i hrun
    rw [hrun] at h
    cases h

/-! ### Wallets, transfers and updates -/

theorem spent_createWallet (user : Nat) (currency : String) (address : Option String)
    (isDefault : Bool) (h : (d.createWallet user currency address isDefault).1.isOk = false) :
    d.Spent (d.createWallet user currency address isDefault).2 := by
  unfold createWallet at *
  split at h
  · exact .inl rfl
  · split at h
    · exact .inl rfl
    · exact .inl (transact_of_error d h)
    · -- The address is spent, whether or not the wallet is opened at it.
      have hasked :
          d.freshAddress.2 = { d with node := d.node.generate.2 }.noteCall .generate := rfl
      generalize d.freshAddress = q at h hasked ⊢
      obtain ⟨answer, d'⟩ := q
      cases answer with
      | error fault => exact .inr hasked
      | ok address => exact .inr ((transact_of_error d' h).trans hasked)

theorem createTransfer_of_error {r : TransferRequest}
    (h : (d.createTransfer r).1.isOk = false) : (d.createTransfer r).2 = d := by
  unfold createTransfer at *
  split
  · rfl
  · rename_i hrun
    rw [hrun] at h
    cases h

theorem attachTx_of_error {transfer sender : Nat} {tx : String}
    (h : (d.attachTx transfer sender tx).1.isOk = false) :
    (d.attachTx transfer sender tx).2 = d := by
  unfold attachTx at *
  split
  · rfl
  · rename_i hrun
    rw [hrun] at h
    cases h

theorem submit_of_error {u : Update} (h : (d.submit u).1.isOk = false) : (d.submit u).2 = d := by
  unfold submit at *
  split
  · rfl
  · rename_i hruns
    rw [if_neg hruns] at h
    cases h

theorem apply_of_error {u : Update} (h : (d.apply u).1.isOk = false) : (d.apply u).2 = d := by
  unfold apply at *
  split
  · rfl
  · rename_i hm
    rw [hm] at h
    cases h

theorem update_of_error {u : Update} (h : (d.update u).1.isOk = false) : (d.update u).2 = d := by
  unfold update at *
  split
  · rfl
  · rename_i hruns
    rw [if_neg hruns] at h
    exact apply_of_error d h

theorem deliver_of_error {signature : Option String} {body : List UInt8}
    (h : (d.deliver signature body).1.isOk = false) : (d.deliver signature body).2 = d := by
  unfold deliver at *
  split
  · rfl
  · rename_i u hu
    rw [hu] at h
    have hanswer : ((d.update u).1.mapError WebhookFault.service).isOk = false := h
    refine update_of_error d ?_
    cases hupdate : (d.update u).1 with
    | error fault => rfl
    | ok o =>
      rw [hupdate] at hanswer
      cases hanswer

/-! ### Payments and watches -/

/-- A payment that is refused after the node has handed out an address leaves
no row and no watch. -/
theorem spent_createPayment (id : String) (r : PaymentRequest)
    (h : (d.createPayment id r).1.isOk = false) : d.Spent (d.createPayment id r).2 := by
  rw [createPayment_eq] at *
  cases hcheck : r.check with
  | error fault => exact .inl rfl
  | ok r =>
    rw [hcheck] at h
    have hasked : d.freshAddress.2 = { d with node := d.node.generate.2 }.noteCall .generate := rfl
    generalize d.freshAddress = q at h hasked ⊢
    obtain ⟨answer, d'⟩ := q
    cases answer with
    | error fault => exact .inr hasked
    | ok address =>
      obtain ⟨fault, hopen⟩ | ⟨w, registry, -, -, hopen⟩ :=
        d'.openPayment_cases (.opened d'.options.baseUrl id address r)
      · show d.Spent (d'.openPayment _).2
        rw [hopen]
        exact .inr hasked
      · replace h : (d'.openPayment (.opened d'.options.baseUrl id address r)).1.isOk = false := h
        rw [hopen] at h
        cases h

theorem paymentStatus_of_error {id : String} (h : (d.paymentStatus id).1.isOk = false) :
    (d.paymentStatus id).2 = d := by
  unfold paymentStatus at *
  cases hp : d.store.payment id with
  | error fault => rfl
  | ok p =>
    rw [hp] at h
    simp only at h
    split at h
    · cases h
    · split at h <;> cases h

theorem watch_of_error {address : String} {network : Network} {observer : Observer}
    (h : (d.watch address network observer).1.isOk = false) :
    (d.watch address network observer).2 = d := by
  unfold watch at *
  split
  · rfl
  · rename_i hw
    rw [hw] at h
    cases h

/-- Watches are started one after the other, but they are refused together: a
registry that has stopped refuses the first. -/
theorem watchAll_of_error {started : Nat} {ps : List Payment}
    (h : (d.watchAll started ps).1.isOk = false) : (d.watchAll started ps).2 = d := by
  cases hs : d.registry.stopped with
  | false =>
    obtain ⟨n, d', hall, -⟩ := d.watchAll_of_running started ps hs
    rw [hall] at h
    cases h
  | true =>
    cases ps with
    | nil => cases h
    | cons p ps =>
      unfold watchAll watchPayment watch Registry.register
      rw [hs]
      rfl

theorem resumeWatches_of_error (h : d.resumeWatches.1.isOk = false) : d.resumeWatches.2 = d := by
  unfold resumeWatches at *
  split
  · rfl
  · rename_i hlisted
    rw [hlisted] at h
    exact watchAll_of_error d h

theorem resume_of_error (h : d.resume.1.isOk = false) : d.resume.2 = d := by
  have hwatches := d.resumeWatches_of_error
  unfold resume at *
  split
  · rename_i hres
    rw [hres] at hwatches
    exact hwatches rfl
  · rename_i hres
    rw [hres] at h
    cases h

/-! ### Requests over HTTP -/

theorem answer_of_refusal {r : Http.Request} {route : Http.Route}
    (h : (Http.answer d r route).1.status ≠ 200) : (Http.answer d r route).2 = d := by
  cases route with
  | ready => rfl
  | live => rfl
  | paymentStatus segment =>
    show (Http.answerStatus d segment).2 = d
    replace h : (Http.answerStatus d segment).1.status ≠ 200 := h
    unfold Http.answerStatus at *
    simp only at h ⊢
    split
    · rfl
    · rename_i id hid
      have hstatus : _ → (d.paymentStatus id).2 = d := d.paymentStatus_of_error
      rw [hid] at h
      simp only at h
      split
      · rename_i hv
        rw [hv] at h
        exact absurd rfl h
      · rename_i hv
        rw [hv] at hstatus
        exact hstatus rfl
  | webhook =>
    show (Http.answerDelivery d r).2 = d
    replace h : (Http.answerDelivery d r).1.status ≠ 200 := h
    have hdeliver : _ → (d.deliver r.signature r.body).2 = d := d.deliver_of_error
    unfold Http.answerDelivery at *
    split
    · rename_i ho
      rw [ho] at h
      exact absurd rfl h
    · rename_i ho
      rw [ho] at hdeliver
      exact hdeliver rfl

theorem handle_of_refusal {r : Http.Request} (h : (Http.handle d r).1.status ≠ 200) :
    (Http.handle d r).2 = d := by
  unfold Http.handle at *
  split
  · rfl
  · rename_i hmethod
    rw [if_neg hmethod] at h
    split
    · rfl
    · rename_i route hroute
      rw [hroute] at h
      simp only at h
      split
      · rename_i hown
        rw [if_pos hown] at h
        exact answer_of_refusal d h
      · rename_i hother
        rw [if_neg hother] at h
        split
        · rename_i hhead
          rw [if_pos hhead] at h
          exact answer_of_refusal d h
        · rfl

/-! ### Every operation -/

/-- The operation is answered with a fault, or over HTTP with a status other
than 200. A call that only waits for the node is not refused, and neither is
what has no answer. -/
def Op.isRefused (d : Desk) : Op → Bool
  | .credit wallet amount => !(d.transact (Ledger.credit · wallet amount)).1.isOk
  | .debit wallet amount => !(d.transact (Ledger.debit · wallet amount)).1.isOk
  | .setBalance wallet balance =>
    !(d.transact (Ledger.setBalance · wallet balance.toInt)).1.isOk
  | .setDefault user wallet currency =>
    !(d.transact (Ledger.setDefault · user wallet currency)).1.isOk
  | .createWallet user currency address isDefault =>
    !(d.createWallet user currency address isDefault).1.isOk
  | .changeWallet wallet change => !(d.transact (Ledger.changeWallet · wallet change)).1.isOk
  | .closeWallet wallet => !(d.transact (Ledger.closeWallet · wallet)).1.isOk
  | .createPayment id r => !(d.createPayment id r).1.isOk
  | .submit u => !(d.submit u).1.isOk
  | .update u => !(d.update u).1.isOk
  | .paymentStatus id => !(d.paymentStatus id).1.isOk
  | .deliver signature body => !(d.deliver signature body).1.isOk
  | .serve r => (Http.handle d r).1.status != 200
  | .watch address network observer => !(d.watch address network observer).1.isOk
  | .createTransfer r => !(d.createTransfer r).1.isOk
  | .attachTx transfer sender tx => !(d.attachTx transfer sender tx).1.isOk
  | .resumeWatches => !d.resumeWatches.1.isOk
  | .resume => !d.resume.1.isOk
  | _ => false

/-- **What is refused changes nothing.** Whatever state a desk is in, an
operation that is refused leaves it as it is, but for an address that the node
may have been asked for: the node has then handed it out, and the call is
noted. -/
theorem refused_changes_nothing (d : Desk) (op : Op) (h : op.isRefused d = true) :
    op.run d = d ∨ op.run d = { d with node := d.node.generate.2 }.noteCall .generate := by
  cases op with
  | credit | debit | setBalance | setDefault | changeWallet | closeWallet =>
    exact .inl (transact_of_error d ((Bool.not_eq_true' _).mp h))
  | createWallet user currency address isDefault =>
    exact spent_createWallet d user currency address isDefault ((Bool.not_eq_true' _).mp h)
  | createPayment id r => exact spent_createPayment d id r ((Bool.not_eq_true' _).mp h)
  | submit u => exact .inl (submit_of_error d ((Bool.not_eq_true' _).mp h))
  | update u => exact .inl (update_of_error d ((Bool.not_eq_true' _).mp h))
  | paymentStatus id => exact .inl (paymentStatus_of_error d ((Bool.not_eq_true' _).mp h))
  | deliver signature body => exact .inl (deliver_of_error d ((Bool.not_eq_true' _).mp h))
  | serve r => exact .inl (handle_of_refusal d (bne_iff_ne.mp h))
  | watch address network observer =>
    exact .inl (watch_of_error d ((Bool.not_eq_true' _).mp h))
  | createTransfer r => exact .inl (createTransfer_of_error d ((Bool.not_eq_true' _).mp h))
  | attachTx transfer sender tx => exact .inl (attachTx_of_error d ((Bool.not_eq_true' _).mp h))
  | resumeWatches => exact .inl (resumeWatches_of_error d ((Bool.not_eq_true' _).mp h))
  | resume => exact .inl (resume_of_error d ((Bool.not_eq_true' _).mp h))
  | cancelAddress | cancelHandle | stopWatches | lookup | settle | resumeTransfers | restart | stop
  | script | takeJournal | advance | quiesce | turn => cases h

/-- A payment is refused since the node hands out an address that is watched;
its row, which was stored before, is gone. -/
theorem refused_changes_nothing_watched :
    let d := (start (ofStore .empty).options).runOps
      [.script { Node.Script.empty with addresses := ["a", "a"] }, .createPayment "p" anyRequest]
    ((Op.createPayment "q" anyRequest).run d).store = d.store := by
  intro d
  rcases refused_changes_nothing d (.createPayment "q" anyRequest) (by decide) with h | h
  · rw [h]
  · rw [h]
    rfl

end Clearing.Desk

import Clearing.Proofs.MergeOrder
import Clearing.Proofs.Service
import Clearing.Proofs.WalletCalls

/-!
# Payments only move on

A payment is written when it is opened and when a proposed status is merged
into it, and by nothing else: wallets, transfers and the attempts to settle
them leave the payments alone.
-/

namespace Clearing

/-! ### What leaves the payments alone -/

theorem Ledger.Op.payments_run (s : Store) (op : Ledger.Op) :
    (op.run s).payments = s.payments :=
  congrArg Prod.fst (besides_run s op)

theorem Attempt.Turn.payments {policy : Policy} {s s' : Store} {id : Nat} {σ τ : Attempt.Stage}
    {d : Option Deed} (h : Turn policy s id σ d τ s') : s'.payments = s.payments := by
  cases h with
  | debited h =>
    obtain ⟨w, -, -, -, -, rfl⟩ := Ledger.debit_eq_ok.mp h
    rfl
  | credited h | refunded h =>
    obtain ⟨w, -, -, -, -, rfl⟩ := Ledger.credit_eq_ok.mp h
    rfl
  | _ => rfl

theorem Attempt.payments_proceed (policy : Policy) (s : Store) (a : Attempt) :
    (a.proceed policy s).2.1.payments = s.payments :=
  (Attempt.steps_invariant policy a.transfer (P := fun s' _ => s'.payments = s.payments)
    (fun h hturn => hturn.payments.trans h) a.stage.remaining a s rfl rfl).1

/-! ### What moves the payments on -/

/-- Every payment of `s` is there in `s'` with a status that does not rank
lower, and as it was if it was completed or failed. -/
def Store.Progresses (s s' : Store) : Prop :=
  ∀ (id : String) (p : Payment), s.payments.get? id = some p →
    ∃ p', s'.payments.get? id = some p' ∧ p.status ≤ p'.status ∧
      (p.status.isTerminal = true → p' = p)

namespace Store.Progresses

variable {s s' s'' : Store}

theorem of_payments (h : s'.payments = s.payments) : s.Progresses s' := by
  intro id p hp
  exact ⟨p, by rw [h, hp], Status.le_refl _, fun _ => rfl⟩

theorem trans (h : s.Progresses s') (h' : s'.Progresses s'') : s.Progresses s'' := by
  intro id p hp
  obtain ⟨p', hp', hle, hstays⟩ := h id p hp
  obtain ⟨p'', hp'', hle', hstays'⟩ := h' id p' hp'
  refine ⟨p'', hp'', Status.le_trans hle hle', fun hterminal => ?_⟩
  have hsame : p' = p := hstays hterminal
  rw [hsame] at hstays'
  exact hstays' hterminal

end Store.Progresses

theorem Payment.le_status_merged (p : Payment) (u : Update) :
    p.status ≤ (p.merged u).status := by
  rw [Payment.status_merged]
  exact Status.le_next _ _

theorem Store.progresses_merge {s : Store} (hk : s.Keyed) (u : Update) :
    s.Progresses (s.after (s.merge u)) := by
  intro id p hp
  rw [Store.get?_merge hk, hp, Option.map_some]
  split
  · exact ⟨p.merged u, rfl, p.le_status_merged u, fun h => Payment.merged_of_terminal h u⟩
  · exact ⟨p, rfl, Status.le_refl _, fun _ => rfl⟩

theorem Store.Commits.progresses {s s' : Store} (hk : s.Keyed) (h : s.Commits s') :
    s'.Keyed ∧ s.Progresses s' := by
  have alone : ∀ {s' : Store}, s'.payments = s.payments → s'.Keyed ∧ s.Progresses s' := by
    intro s' hp
    refine ⟨fun {id p} hrow => ?_, .of_payments hp⟩
    rw [hp] at hrow
    exact hk hrow
  cases h with
  | @merge u o s' h =>
    have hafter : s.after (s.merge u) = s' := by rw [h]; rfl
    rw [← hafter]
    exact ⟨hk.merge u, Store.progresses_merge hk u⟩
  | @addPayment p s' h =>
    obtain ⟨hnew, rfl⟩ := Store.addPayment_eq_ok h
    refine ⟨fun {id q} hq => ?_, fun id q hq => ?_⟩
    · rw [Store.get?_putPayment] at hq
      split at hq
      · rename_i hid
        rw [← Option.some.inj hq, hid]
      · exact hk hq
    · have hne : id ≠ p.id := by
        rintro rfl
        rw [hnew] at hq
        cases hq
      refine ⟨q, ?_, Status.le_refl _, fun _ => rfl⟩
      rw [Store.get?_putPayment, if_neg hne, hq]
  | addTransfer h => exact alone rfl
  | linkTx h =>
    obtain ⟨r, -, -, -, rfl⟩ := Store.linkTx_eq_some h
    exact alone rfl
  | proceed policy a ha => exact alone (Attempt.payments_proceed policy s a)

theorem Store.Leads.progresses {s s' : Store} {g : Int} (hk : s.Keyed) (h : s.Leads g s') :
    s'.Keyed ∧ s.Progresses s' := by
  refine Store.Leads.invariant (P := fun s' => s'.Keyed ∧ s.Progresses s') ?_ ?_ h
    ⟨hk, .of_payments rfl⟩
  · intro t op ht
    have hpayments := Ledger.Op.payments_run t op
    refine ⟨fun {id p} hrow => ?_, ht.2.trans (.of_payments hpayments)⟩
    rw [hpayments] at hrow
    exact ht.1 hrow
  · intro t t' ht hc
    obtain ⟨hk', hprogress⟩ := hc.progresses ht.1
    exact ⟨hk', ht.2.trans hprogress⟩

namespace Desk

/-- **Payments only move on.** Take any payment of a desk, and look again after any
operations, updates of all kinds among them, and in the middle of merging. The
payment is there, its status does not rank lower than before, and if it was
completed or failed its whole row is what it was. -/
theorem payments_progress (d : Desk) (hkeyed : d.store.Keyed) (ops : List Op) (us : List Update)
    {id : String} {p : Payment} (hp : d.store.payments.get? id = some p) :
    let s := ((d.runOps ops).mergeAll us).store
    s.Keyed ∧ ∃ p', s.payments.get? id = some p' ∧ p.status ≤ p'.status ∧
      (p.status.isTerminal = true → p' = p) := by
  intro s
  have hleads : d.store.Leads _ s := (leads_runOps d ops).append (leads_mergeAll _ us)
  obtain ⟨hkeyed', hprogress⟩ := hleads.progresses hkeyed
  exact ⟨hkeyed', hprogress id p hp⟩

/-- A payment that is completed stays so, whatever is proposed. -/
theorem payments_progress_completed :
    (((ofStore (.ofPayment { firstPayment with status := .completed })).runOps
        [.update (.ofWebhook "p" .failed), .submit (.ofSighting "p" (.of World.firstTx 3)),
          .quiesce]).mergeAll [.ofWebhook "p" .waiting]).store.payments.get? "p" =
      some { firstPayment with status := .completed } := by
  obtain ⟨-, p', hp', -, hstays⟩ := payments_progress
    (ofStore (.ofPayment { firstPayment with status := .completed })) (Store.keyed_ofPayment _)
    [.update (.ofWebhook "p" .failed), .submit (.ofSighting "p" (.of World.firstTx 3)), .quiesce]
    [.ofWebhook "p" .waiting] (Store.get?_ofPayment _ "p")
  rw [hp', hstays rfl]

end Desk
end Clearing

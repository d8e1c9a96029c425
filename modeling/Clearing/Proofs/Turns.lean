import Clearing.Proofs.LedgerOps
import Clearing.Transfer.Attempt

/-!
# What one transaction of an attempt can do

An attempt moves by transactions, and `Turn` lists what a single one can do:
the stage it is made in, what the store has to look like, what is done, the
next stage and the store left behind. All that is proved of attempts later
goes through this list. What is done is told by the answer of the store or of
the ledger, as a `Deed`.
-/

namespace Clearing

/-- What an attempt did, as far as it matters to others. -/
inductive Deed
  /-- It found the transfer unprocessed and linked to `tx`. -/
  | opened (tx : String)
  | heard (tx : String) (answer : Except NodeFault Int)
  /-- It flipped the latch, before any balance was touched. -/
  | claimed
  | debited (wallet : Nat) (amount : Int)
  | debitRefused
  | credited (wallet : Nat) (amount : Int)
  | creditRefused
  | refunded (wallet : Nat) (amount : Int)
  | refundRefused
  /-- It flipped the latch and set the last status in one. -/
  | closed
  | settled (status : TransferStatus)

/-- What a deed adds to the balance of a wallet. -/
def Deed.gain (k : Nat) : Deed → Int
  | .debited wallet amount => if k = wallet then -amount else 0
  | .credited wallet amount => if k = wallet then amount else 0
  | .refunded wallet amount => if k = wallet then amount else 0
  | _ => 0

/-- What a complete settlement adds to the balance of a wallet. -/
def Transfer.gain (r : Transfer) (k : Nat) : Int :=
  (if k = r.source then -r.amount else 0) + if k = r.receiver then r.amount else 0

namespace Store

variable {s : Store} {id : Nat} {t : Transfer}

theorem transfer_of_none (h : s.transfers.get? id = none) :
    s.transfer id = .error (.notFound ("Transfer " ++ toString id)) := by
  unfold transfer
  rw [h]

theorem modifyUnprocessed_of_none (h : s.transfers.get? id = none)
    (change : Transfer → Transfer) :
    s.modifyUnprocessed id change = .error (.notFound ("Transfer " ++ toString id)) := by
  unfold modifyUnprocessed
  rw [transfer_of_none h]

theorem modifyUnprocessed_of_processed (h : s.transfers.get? id = some t)
    (hp : t.isProcessed = true) (change : Transfer → Transfer) :
    s.modifyUnprocessed id change = .ok (none, s) := by
  unfold modifyUnprocessed
  rw [transfer_eq_ok.mpr h]
  simp only [hp, if_true]

theorem modifyUnprocessed_of_open (h : s.transfers.get? id = some t)
    (hp : t.isProcessed = false) (change : Transfer → Transfer) :
    s.modifyUnprocessed id change = .ok (some (change t), s.putTransfer (change t)) := by
  unfold modifyUnprocessed
  rw [transfer_eq_ok.mpr h]
  simp only [hp, Bool.false_eq_true, if_false]

theorem setTransferStatus_of_some (h : s.transfers.get? id = some t) (status : TransferStatus) :
    s.setTransferStatus id status = .ok ({ t with status }, s.putTransfer { t with status }) := by
  unfold setTransferStatus
  rw [transfer_eq_ok.mpr h]

end Store

namespace Attempt

def deed? (s : Store) (a : Attempt) : Option Deed :=
  match a.stage with
  | .opening =>
    match s.transfer a.transfer with
    | .ok t => if t.isProcessed then none else t.linkedTx.map .opened
    | .error _ => none
  | .claiming =>
    match s.claim a.transfer with
    | .ok (some _, _) => some .claimed
    | _ => none
  | .debiting t =>
    match Ledger.debit s t.source t.amount with
    | .ok _ => some (.debited t.source t.amount)
    | .error _ => some .debitRefused
  | .crediting t =>
    match Ledger.credit s t.receiver t.amount with
    | .ok _ => some (.credited t.receiver t.amount)
    | .error _ => some .creditRefused
  | .refunding t =>
    match Ledger.credit s t.source t.amount with
    | .ok _ => some (.refunded t.source t.amount)
    | .error _ => some .refundRefused
  | .finishing status =>
    match s.setTransferStatus a.transfer status with
    | .ok (t, _) => some (.settled t.status)
    | .error _ => none
  | .closing =>
    match s.closeTransfer a.transfer .failed with
    | .ok (some _, _) => some .closed
    | _ => none
  | .reporting =>
    match s.transfer a.transfer with
    | .ok t => some (.settled t.status)
    | .error _ => none
  | .asking _ | .counting _ | .done _ => none

/-- The stages in which nothing has been written for the transfer yet, and a
transaction looks at the latch first. -/
def Stage.isEarly : Stage → Bool
  | .opening | .claiming | .counting _ | .closing => true
  | _ => false

/-- The stages of the attempt that has flipped the latch, up to its answer that
the transfer is settled. -/
def Stage.holds : Stage → Bool
  | .debiting _ | .crediting _ | .refunding _ | .finishing _ | .reporting
  | .done (.ok (.settled _)) => true
  | _ => false

theorem Stage.holds_of_early {σ : Stage} (h : σ.isEarly = true) : σ.holds = false := by
  cases σ <;> simp [isEarly, holds] at h ⊢

theorem isEarly_whileShallow (policy : Policy) : policy.whileShallow.isEarly = true := by
  cases policy <;> rfl

theorem isEarly_decide (policy : Policy) (answer : Except NodeFault Int) :
    (policy.decide answer).isEarly = true := by
  unfold Policy.decide
  split
  · split
    · rfl
    · exact isEarly_whileShallow policy
  · exact isEarly_whileShallow policy
  · rfl

/-- The transactions on the store `s` of an attempt on the transfer `id`:
stage, deed, next stage and the store left behind. -/
inductive Turn (policy : Policy) (s : Store) (id : Nat) : Stage → Option Deed → Stage → Store → Prop
  | waits {tx} : Turn policy s id (.asking tx) none (.asking tx) s
  | ended {result} : Turn policy s id (.done result) none (.done result) s
  | missing {σ fault} (hr : s.transfers.get? id = none)
      (hσ : σ.isEarly ∨ σ = .reporting ∨ ∃ status, σ = .finishing status) :
      Turn policy s id σ none (.broken fault) s
  | late {σ r} (hr : s.transfers.get? id = some r) (hp : r.isProcessed = true) (hσ : σ.isEarly) :
      Turn policy s id σ none .late s
  | opened {r tx} (hr : s.transfers.get? id = some r) (hp : r.isProcessed = false)
      (hl : r.linkedTx = some tx) : Turn policy s id .opening (some (.opened tx)) (.asking tx) s
  | unlinked {r} (hr : s.transfers.get? id = some r) (hp : r.isProcessed = false)
      (hl : r.linkedTx = none) : Turn policy s id .opening none policy.whileShallow s
  | counted {r limit τ} (hr : s.transfers.get? id = some r) (hp : r.isProcessed = false)
      (hτ : τ = if limit ≤ r.checks + 1 then .closing else .done (.ok (.deferred (r.checks + 1)))) :
      Turn policy s id (.counting limit) none τ (s.putTransfer { r with checks := r.checks + 1 })
  | claimed {r} (hr : s.transfers.get? id = some r) (hp : r.isProcessed = false) :
      Turn policy s id .claiming (some .claimed) (.debiting { r with isProcessed := true })
        (s.putTransfer { r with isProcessed := true })
  | closed {r} (hr : s.transfers.get? id = some r) (hp : r.isProcessed = false) :
      Turn policy s id .closing (some .closed) .reporting
        (s.putTransfer { r with isProcessed := true, status := .failed })
  | debited {q b s'} (h : Ledger.debit s q.source q.amount = .ok (b, s')) :
      Turn policy s id (.debiting q) (some (.debited q.source q.amount)) (.crediting q) s'
  | debitRefused {q fault} (h : Ledger.debit s q.source q.amount = .error fault) :
      Turn policy s id (.debiting q) (some .debitRefused) (.finishing .failed) s
  | credited {q b s'} (h : Ledger.credit s q.receiver q.amount = .ok (b, s')) :
      Turn policy s id (.crediting q) (some (.credited q.receiver q.amount))
        (.finishing .completed) s'
  | creditRefused {q fault} (h : Ledger.credit s q.receiver q.amount = .error fault) :
      Turn policy s id (.crediting q) (some .creditRefused) (.refunding q) s
  | refunded {q b s'} (h : Ledger.credit s q.source q.amount = .ok (b, s')) :
      Turn policy s id (.refunding q) (some (.refunded q.source q.amount)) (.finishing .failed) s'
  | refundRefused {q fault} (h : Ledger.credit s q.source q.amount = .error fault) :
      Turn policy s id (.refunding q) (some .refundRefused) (.finishing .failed) s
  | finished {r status} (hr : s.transfers.get? id = some r) :
      Turn policy s id (.finishing status) (some (.settled status))
        (.done (.ok (.settled { r with status }))) (s.putTransfer { r with status })
  | reported {r} (hr : s.transfers.get? id = some r) :
      Turn policy s id .reporting (some (.settled r.status)) (.done (.ok (.settled r))) s

/-- The list is complete. -/
theorem turn_step (policy : Policy) (s : Store) (a : Attempt) :
    Turn policy s a.transfer a.stage (a.deed? s) (a.step policy s).1.stage
      (a.step policy s).2.1 := by
  obtain ⟨id, σ⟩ := a
  have row : s.transfers.get? id = none ∨ ∃ r, s.transfers.get? id = some r ∧
      (r.isProcessed = true ∨ r.isProcessed = false) := by
    cases s.transfers.get? id with
    | none => exact .inl rfl
    | some r => exact .inr ⟨r, rfl, by cases r.isProcessed <;> simp⟩
  cases σ with
  | opening =>
    obtain hr | ⟨r, hr, hp | hp⟩ := row
    · simp only [step, deed?, stepStage, Store.transfer_of_none hr]
      exact .missing hr (.inl rfl)
    · simp only [step, deed?, stepStage, Store.transfer_eq_ok.mpr hr, hp, if_true]
      exact .late hr hp rfl
    · simp only [step, deed?, stepStage, Store.transfer_eq_ok.mpr hr, hp, Bool.false_eq_true,
        if_false]
      cases hl : r.linkedTx with
      | none => exact .unlinked hr hp hl
      | some tx => exact .opened hr hp hl
  | claiming =>
    obtain hr | ⟨r, hr, hp | hp⟩ := row
    · simp only [step, deed?, stepStage, Store.claim, Store.modifyUnprocessed_of_none hr]
      exact .missing hr (.inl rfl)
    · simp only [step, deed?, stepStage, Store.claim, Store.modifyUnprocessed_of_processed hr hp]
      exact .late hr hp rfl
    · simp only [step, deed?, stepStage, Store.claim, Store.modifyUnprocessed_of_open hr hp]
      exact .claimed hr hp
  | counting limit =>
    obtain hr | ⟨r, hr, hp | hp⟩ := row
    · simp only [step, deed?, stepStage, Store.countCheck, Store.modifyUnprocessed_of_none hr]
      exact .missing hr (.inl rfl)
    · simp only [step, deed?, stepStage, Store.countCheck,
        Store.modifyUnprocessed_of_processed hr hp]
      exact .late hr hp rfl
    · simp only [step, deed?, stepStage, Store.countCheck, Store.modifyUnprocessed_of_open hr hp]
      split
      · rename_i hlimit
        exact .counted hr hp (by rw [if_pos hlimit])
      · rename_i hlimit
        exact .counted hr hp (by rw [if_neg hlimit])
  | closing =>
    obtain hr | ⟨r, hr, hp | hp⟩ := row
    · simp only [step, deed?, stepStage, Store.closeTransfer, Store.modifyUnprocessed_of_none hr]
      exact .missing hr (.inl rfl)
    · simp only [step, deed?, stepStage, Store.closeTransfer,
        Store.modifyUnprocessed_of_processed hr hp]
      exact .late hr hp rfl
    · simp only [step, deed?, stepStage, Store.closeTransfer,
        Store.modifyUnprocessed_of_open hr hp]
      exact .closed hr hp
  | debiting q =>
    cases h : Ledger.debit s q.source q.amount with
    | error fault =>
      simp only [step, deed?, stepStage, h]
      exact .debitRefused h
    | ok r =>
      simp only [step, deed?, stepStage, h]
      exact .debited h
  | crediting q =>
    cases h : Ledger.credit s q.receiver q.amount with
    | error fault =>
      simp only [step, deed?, stepStage, h]
      exact .creditRefused h
    | ok r =>
      simp only [step, deed?, stepStage, h]
      exact .credited h
  | refunding q =>
    cases h : Ledger.credit s q.source q.amount with
    | error fault =>
      simp only [step, deed?, stepStage, h]
      exact .refundRefused h
    | ok r =>
      simp only [step, deed?, stepStage, h]
      exact .refunded h
  | finishing status =>
    obtain hr | ⟨r, hr, -⟩ := row
    · simp only [step, deed?, stepStage, Store.setTransferStatus, Store.transfer_of_none hr]
      exact .missing hr (.inr (.inr ⟨status, rfl⟩))
    · simp only [step, deed?, stepStage, Store.setTransferStatus_of_some hr]
      exact .finished hr
  | reporting =>
    obtain hr | ⟨r, hr, -⟩ := row
    · simp only [step, deed?, stepStage, Store.transfer_of_none hr]
      exact .missing hr (.inr (.inl rfl))
    · simp only [step, deed?, stepStage, Store.transfer_eq_ok.mpr hr]
      exact .reported hr
  | asking tx => exact .waits
  | done result => exact .ended

end Attempt
end Clearing

import Clearing.Notice.Basic
import Clearing.Store.Payments

/-!
# Merging a proposed status

Trackers and webhooks propose statuses; the merge decides what becomes of a
proposal. A status that may not take the place of the stored one is stale. A
proposal that comes with another transaction than the linked one has to rank
strictly higher, or nothing is written. All else is written, and counts as
applied if the status is a new one.
-/

namespace Clearing

/-- What became of a proposal, with the payment as it is stored now. -/
inductive Outcome
  | applied (p : Payment)
  | unchanged (p : Payment)
  | stale (p : Payment)
deriving DecidableEq, Repr

def Outcome.payment : Outcome → Payment
  | .applied p => p
  | .unchanged p => p
  | .stale p => p

def Outcome.isApplied : Outcome → Bool
  | .applied _ => true
  | _ => false

namespace Payment

def otherTx (p : Payment) (u : Update) : Bool :=
  match p.linkedTx, u.txId with
  | some linked, some tx => linked != tx
  | _, _ => false

def revised (p : Payment) (u : Update) : Payment :=
  { p with
    status := u.status
    linkedTx := u.txId.orElse fun _ => p.linkedTx
    confirmations := u.depth.getD p.confirmations }

def merged (p : Payment) (u : Update) : Payment :=
  if !p.status.accepts u.status then p
  else if p.otherTx u && u.status.rankLe p.status then p
  else p.revised u

/-- What to call the step from `p` to `merged p u`. -/
def outcome (p : Payment) (u : Update) : Outcome :=
  if !p.status.accepts u.status then .stale p
  else if (p.merged u).status = p.status then .unchanged (p.merged u)
  else .applied (p.merged u)

theorem payment_outcome (p : Payment) (u : Update) : (p.outcome u).payment = p.merged u := by
  unfold outcome
  split
  · rename_i h
    simp only [Outcome.payment, merged, h, if_true]
  · split <;> rfl

def notice (p : Payment) : Notice :=
  { subject := .payment, id := p.id, status := p.status.text }

end Payment

/-- Merges a proposal into the stored payment, in one transaction. Nothing is
written if the payment stays as it is. -/
def Store.merge (s : Store) (u : Update) : Except StoreFault (Outcome × Store) :=
  match s.payment u.paymentId with
  | .error fault => .error fault
  | .ok p => .ok (p.outcome u, if p.merged u = p then s else s.putPayment (p.merged u))

end Clearing

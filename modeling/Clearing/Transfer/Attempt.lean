import Clearing.Confirmation
import Clearing.Ledger.Basic
import Clearing.Notice.Basic
import Clearing.Store.Transfers

/-!
# Attempts to settle a transfer

An attempt opens the transfer, asks the node for the depth of the linked
transaction, and acts on the answer. If the transaction is final it claims the
transfer, debits the source and credits the receiver; a credit that fails is
made good by a refund. Otherwise the policy decides between another check later
and giving up. Each stage is one transaction on the store, so attempts on the
same transfer, and anything else, may come between two stages.
-/

namespace Clearing

inductive Settlement
  /-- Another attempt has the transfer. -/
  | alreadyProcessed
  /-- Not final yet, after so many checks. -/
  | deferred (checks : Nat)
  | settled (t : Transfer)
deriving DecidableEq, Repr

inductive Attempt.Stage
  | opening
  | asking (tx : String)
  | claiming
  | debiting (t : Transfer)
  | crediting (t : Transfer)
  | refunding (t : Transfer)
  | finishing (status : TransferStatus)
  /-- A check is counted; from `limit` checks on the transfer fails. -/
  | counting (limit : Nat)
  | closing
  | reporting
  | done (result : Except StoreFault Settlement)
deriving Repr

structure Attempt where
  transfer : Nat
  stage : Attempt.Stage
deriving Repr

def Transfer.notice (t : Transfer) : Notice :=
  { subject := .transfer, id := toString t.id, status := t.status.text }

/-- What follows while the transaction is not final. -/
def Policy.whileShallow : Policy → Attempt.Stage
  | .failFast => .closing
  | .retry _ limit => .counting limit

/-- What follows the node's answer. A transaction that is unknown may still
turn up, so only retrying waits for it; any other fault ends the transfer. -/
def Policy.decide (p : Policy) : Except NodeFault Int → Attempt.Stage
  | .ok depth => if finalDepth ≤ depth then .claiming else p.whileShallow
  | .error (.unknownTx _) => p.whileShallow
  | .error _ => .closing

namespace Attempt

/-- How many steps are left at most until the attempt waits or is done. -/
def Stage.remaining : Stage → Nat
  | .opening => 4
  | .asking _ => 0
  | .claiming => 5
  | .debiting _ => 4
  | .crediting _ => 3
  | .refunding _ => 2
  | .finishing _ => 1
  | .counting _ => 3
  | .closing => 2
  | .reporting => 1
  | .done _ => 0

def Stage.broken (fault : StoreFault) : Stage := .done (.error fault)

def Stage.late : Stage := .done (.ok .alreadyProcessed)

/-- One transaction of an attempt on transfer `id`: the next stage, the store
left behind, and what is published. A transfer without a linked transaction
counts as one whose transaction is unknown. -/
def stepStage (policy : Policy) (id : Nat) (s : Store) : Stage → Stage × Store × List Notice
  | .opening =>
    match s.transfer id with
    | .error fault => (.broken fault, s, [])
    | .ok t =>
      if t.isProcessed then (.late, s, [])
      else
        match t.linkedTx with
        | some tx => (.asking tx, s, [])
        | none => (policy.whileShallow, s, [])
  | .claiming =>
    match s.claim id with
    | .error fault => (.broken fault, s, [])
    | .ok (none, s) => (.late, s, [])
    | .ok (some t, s) => (.debiting t, s, [])
  | .debiting t =>
    match Ledger.debit s t.source t.amount with
    | .error _ => (.finishing .failed, s, [])
    | .ok (_, s) => (.crediting t, s, [])
  | .crediting t =>
    match Ledger.credit s t.receiver t.amount with
    | .error _ => (.refunding t, s, [])
    | .ok (_, s) => (.finishing .completed, s, [])
  | .refunding t =>
    match Ledger.credit s t.source t.amount with
    | .error _ => (.finishing .failed, s, [])
    | .ok (_, s) => (.finishing .failed, s, [])
  | .finishing status =>
    match s.setTransferStatus id status with
    | .error fault => (.broken fault, s, [])
    | .ok (t, s) => (.done (.ok (.settled t)), s, [t.notice])
  | .counting limit =>
    match s.countCheck id with
    | .error fault => (.broken fault, s, [])
    | .ok (none, s) => (.late, s, [])
    | .ok (some t, s) =>
      if limit ≤ t.checks then (.closing, s, []) else (.done (.ok (.deferred t.checks)), s, [])
  | .closing =>
    match s.closeTransfer id .failed with
    | .error fault => (.broken fault, s, [])
    | .ok (none, s) => (.late, s, [])
    | .ok (some _, s) => (.reporting, s, [])
  | .reporting =>
    match s.transfer id with
    | .error fault => (.broken fault, s, [])
    | .ok t => (.done (.ok (.settled t)), s, [t.notice])
  | .asking tx => (.asking tx, s, [])
  | .done result => (.done result, s, [])

def step (policy : Policy) (s : Store) (a : Attempt) : Attempt × Store × List Notice :=
  let r := stepStage policy a.transfer s a.stage
  ({ a with stage := r.1 }, r.2)

def steps (policy : Policy) : Nat → Store → Attempt → Attempt × Store × List Notice
  | 0, s, a => (a, s, [])
  | n + 1, s, a =>
    let r := a.step policy s
    let q := r.1.steps policy n r.2.1
    (q.1, q.2.1, r.2.2 ++ q.2.2)

theorem remaining_whileShallow_le (policy : Policy) : policy.whileShallow.remaining ≤ 3 := by
  cases policy with
  | failFast => exact Nat.le_succ 2
  | retry interval limit => exact Nat.le_refl 3

theorem remaining_stepStage_le (policy : Policy) (id : Nat) (s : Store) (stage : Stage) :
    (stepStage policy id s stage).1.remaining ≤ stage.remaining - 1 := by
  cases stage with
  | opening =>
    simp only [stepStage]
    split
    · exact Nat.zero_le _
    · split
      · exact Nat.zero_le _
      · split
        · exact Nat.zero_le _
        · exact remaining_whileShallow_le policy
  | _ =>
    simp only [stepStage]
    repeat' split
    all_goals simp [Stage.remaining, Stage.broken, Stage.late]

/-- As many steps as remain lead to where the attempt waits or is done. -/
theorem remaining_steps (policy : Policy) (n : Nat) (s : Store) (a : Attempt)
    (h : a.stage.remaining ≤ n) : (a.steps policy n s).1.stage.remaining = 0 := by
  induction n generalizing s a with
  | zero => exact Nat.le_zero.mp h
  | succ n ih =>
    have hs := remaining_stepStage_le policy a.transfer s a.stage
    exact ih _ _ (by simp only [step]; omega)

def start (transfer : Nat) : Attempt := { transfer, stage := .opening }

/-- Takes an attempt on until it waits for the node or is done. -/
def proceed (policy : Policy) (s : Store) (a : Attempt) : Attempt × Store × List Notice :=
  a.steps policy a.stage.remaining s

theorem remaining_proceed (policy : Policy) (s : Store) (a : Attempt) :
    (a.proceed policy s).1.stage.remaining = 0 :=
  remaining_steps policy _ s a (Nat.le_refl _)

def heard (policy : Policy) (a : Attempt) (answer : Except NodeFault Int) : Attempt :=
  match a.stage with
  | .asking _ => { a with stage := policy.decide answer }
  | _ => a

end Attempt
end Clearing

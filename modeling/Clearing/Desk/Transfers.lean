import Clearing.Desk.Basic
import Clearing.Transfer.Request

/-!
# Transfers at the desk

Each transfer that is stored, linked or resumed gets a task of its own, which
attempts to settle it, and under a retrying policy comes back after each
attempt that was deferred. Several tasks may work on one transfer.
-/

namespace Clearing

def Attempt.result? (a : Attempt) : Option (Except StoreFault Settlement) :=
  match a.stage with
  | .done result => some result
  | _ => none

def Attempt.isAsking (a : Attempt) : Bool :=
  match a.stage with
  | .asking _ => true
  | _ => false

namespace Desk

def proceed (d : Desk) (a : Attempt) : Attempt × Desk :=
  let (a, store, notices) := a.proceed d.options.policy d.store
  (a, { d with store }.publish notices)

def hearAttempt (d : Desk) (a : Attempt) : Attempt × Desk :=
  match a.stage with
  | .asking tx => d.proceed (a.heard d.options.policy (d.node.depth tx))
  | _ => (a, d)

/-- Begins an attempt, and hears the node if it answers at once. -/
def beginAttempt (d : Desk) (transfer : Nat) : Attempt × Desk :=
  let (a, d) := d.proceed (.start transfer)
  match a.stage with
  | .asking tx =>
    let d := d.noteCall (.lookup tx)
    if d.node.lookupDelay = 0 then d.hearAttempt a else (a, d)
  | _ => (a, d)

/-- Lets the task of an attempt wait for the node or for the next attempt. -/
def followAttempt (d : Desk) (a : Attempt) : Desk :=
  match a.stage, d.options.policy with
  | .asking _, _ => d.later d.node.lookupDelay (.settle a)
  | .done (.ok (.deferred _)), .retry interval _ =>
    if d.stopped then d else d.later interval (.retry a.transfer)
  | _, _ => d

def resumeAttempt (d : Desk) (a : Attempt) : Desk :=
  let (a, d) := if a.isAsking then d.hearAttempt a else d.beginAttempt a.transfer
  d.followAttempt a

def retry (d : Desk) (transfer : Nat) : Desk :=
  if d.stopped then d
  else
    let (a, d) := d.beginAttempt transfer
    d.followAttempt a

def schedule (d : Desk) (transfer : Nat) : Desk :=
  d.later 0 (.settle (.start transfer))

def createTransfer (d : Desk) (r : TransferRequest) : Except ServiceFault Transfer × Desk :=
  match d.store.requestTransfer r with
  | .error fault => (.error fault, d)
  | .ok (t, store) => (.ok t, { d with store }.schedule t.id)

def attachTx (d : Desk) (transfer sender : Nat) (tx : String) :
    Except ServiceFault Transfer × Desk :=
  match d.store.attachTx transfer sender tx with
  | .error fault => (.error fault, d)
  | .ok (t, store) => (.ok t, { d with store }.schedule transfer)

def resumeTransfers (d : Desk) : Nat × Desk :=
  let open_ := d.store.unprocessedTransfers
  (open_.length, open_.foldl (fun d t => d.schedule t.id) d)

end Desk
end Clearing

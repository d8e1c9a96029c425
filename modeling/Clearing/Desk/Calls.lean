import Clearing.Desk.Clock

/-!
# Calls that wait for the node

A call from outside that asks the node for a depth waits until the node has
answered; meanwhile the tasks of the desk go on.
-/

namespace Clearing.Desk

def lookup (d : Desk) (tx : String) : Except NodeFault Int × Desk :=
  let d := (d.noteCall (.lookup tx)).await d.node.lookupDelay
  (d.node.depth tx, d)

/-- The stored status of a payment, with the depth that its transaction has
now if the payment is being confirmed and the node can tell. -/
def paymentStatus (d : Desk) (id : String) : Except ServiceFault PaymentView × Desk :=
  match d.store.payment id with
  | .error fault => (.error (.ofStore fault), d)
  | .ok p =>
    match p.linkedTx.filter fun _ => p.status.isConfirming with
    | none => (.ok p.view, d)
    | some tx =>
      match d.lookup tx with
      | (.ok depth, d) => (.ok { p.view with confirmations := depth }, d)
      | (.error _, d) => (.ok p.view, d)

def beginAttempts (d : Desk) (transfer : Nat) : Nat → List Attempt × Desk
  | 0 => ([], d)
  | n + 1 =>
    let (a, d) := d.beginAttempt transfer
    let (rest, d) := d.beginAttempts transfer n
    (a :: rest, d)

def hearAttempts (d : Desk) : List Attempt → List Attempt × Desk
  | [] => ([], d)
  | a :: rest =>
    let (a, d) := d.hearAttempt a
    let (rest, d) := d.hearAttempts rest
    (a :: rest, d)

/-- Makes so many attempts on a transfer side by side. -/
def settle (d : Desk) (transfer times : Nat) :
    List (Except ServiceFault Settlement) × Desk :=
  let (attempts, d) := d.beginAttempts transfer times
  let d := if attempts.any (·.isAsking) then d.await d.node.lookupDelay else d
  let (attempts, d) := d.hearAttempts attempts
  ((attempts.filterMap (·.result?)).map (·.mapError .ofStore), d)

end Clearing.Desk

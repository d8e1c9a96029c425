import Clearing.Desk.Basic
import Clearing.Payment.Merge

/-!
# Merging updates at the desk

The desk merges the updates handed in one after the other. A payment that
takes a new status is announced, and its watch is cancelled once no sighting
could carry the payment further.
-/

namespace Clearing.Desk

def announce (d : Desk) : Outcome → Desk
  | .unchanged _ => d
  | .stale _ => d
  | .applied p =>
    let d := d.publish [p.notice]
    if p.status.endsWatch then { d with registry := (d.registry.cancel p.receivingAddress).2 }
    else d

def apply (d : Desk) (u : Update) : Except ServiceFault Outcome × Desk :=
  match d.store.merge u with
  | .error fault => (.error (.ofStore fault), d)
  | .ok (outcome, store) => (.ok outcome, { d with store }.announce outcome)

/-- Merges all that was handed in; an update that fails is dropped. -/
def mergeInbox (d : Desk) : Desk :=
  d.inbox.foldl (fun d u => (d.apply u).2) { d with inbox := [] }

/-- Merges an update at the moment it is taken up, and answers with the outcome;
what waits in the inbox is merged in its own turn, before or after. -/
def update (d : Desk) (u : Update) : Except ServiceFault Outcome × Desk :=
  if d.stopped then (.error .stopped, d) else d.apply u

end Clearing.Desk

import Clearing.Confirmation
import Clearing.Watch.Fault

/-!
# Watches

A watch polls the node for the transactions at its address, asks for the depth
of each, and tells its observer what it sees. A poll that fails is tried again
after the back-off; nothing but cancelling ends a watch. Whether it is
cancelled is looked at before a poll, before each transaction and before it
pauses, so what was asked of the node before is still heard.
-/

namespace Clearing

inductive Observer
  | payment (id : String)
  /-- A journal of sightings, under this label. -/
  | journal (label : String)
deriving DecidableEq, Repr

structure Watch where
  /-- No two watches have the same number. -/
  id : Nat
  address : String
  network : Network
  observer : Observer
deriving DecidableEq, Repr

/-- How long watches pause, in milliseconds, and how much they ask for. -/
structure Timing where
  pollInterval : Nat
  backoff : Nat
  pageSize : Nat
deriving DecidableEq, Repr

def Timing.standard : Timing := { pollInterval := 60000, backoff := 10000, pageSize := 10 }

namespace Watch

inductive Stage
  | pausing
  /-- The transactions at the address, given in its canonical text. -/
  | searching (address : String)
  /-- The depth of `tx`, with `rest` left of the page. -/
  | looking (tx : String) (rest : List String)
deriving DecidableEq, Repr

inductive Glance
  | stop
  /-- What is no transaction id is passed over. -/
  | pass
  | ask
deriving DecidableEq, Repr

def glance (cancelled : Bool) (tx : String) : Glance :=
  if cancelled then .stop else if isTxId tx then .ask else .pass

/-- What is seen when a look-up is answered; a fault shows nothing. -/
def heard (tx : String) : Except NodeFault Int → Option Sighting
  | .ok depth => some (.of tx depth)
  | .error _ => none

end Watch
end Clearing

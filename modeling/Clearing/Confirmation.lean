import Clearing.Text.Hex

/-!
# Confirmation depths

The node says how many blocks deep a transaction is. From six blocks on it is
final; from one block on it is on its way; a depth of zero or below (a
transaction in conflict with the chain) counts as not mined.
-/

namespace Clearing

def finalDepth : Int := 6

inductive Confirmation
  | pending
  | confirming
  | confirmed
deriving DecidableEq, Repr

namespace Confirmation

def ofDepth (depth : Int) : Confirmation :=
  if finalDepth ≤ depth then .confirmed
  else if 0 < depth then .confirming
  else .pending

def text : Confirmation → String
  | .pending => "pending"
  | .confirming => "pending_confirmation"
  | .confirmed => "confirmed"

end Confirmation

structure Sighting where
  txId : String
  depth : Int
  status : Confirmation
deriving DecidableEq, Repr

def Sighting.of (txId : String) (depth : Int) : Sighting :=
  { txId, depth, status := .ofDepth depth }

/-- A transaction id is 64 hexadecimal digits of either case. -/
def isTxId (s : String) : Bool :=
  s.toList.length == 64 && s.toList.all fun c => (Text.Hex.value? c).isSome

end Clearing

import Clearing.Ledger.Fault
import Clearing.Watch.Fault

/-!
# Faults of the service

What a payment or transfer operation answers when it fails. Faults of the
ledger and the store are sorted by what the caller can do about them.
-/

namespace Clearing

inductive ServiceFault
  | invalid (reason : String)
  | unauthorized (reason : String)
  | notFound (what : String)
  | insufficient (reason : String)
  | node (fault : NodeFault)
  | watch (fault : WatchFault)
  | ledger (fault : LedgerFault)
  | store (fault : StoreFault)
  | stopped
deriving DecidableEq, Repr

structure Denial where
  user : Nat
  /-- What was asked for, such as a wallet with its number. -/
  label : String
deriving DecidableEq, Repr

namespace Denial

def message (d : Denial) : String :=
  "user " ++ toString d.user ++ " does not own " ++ d.label

def check (user owner : Nat) (label : String) : Except Denial Unit :=
  if owner = user then .ok () else .error { user, label }

end Denial

namespace ServiceFault

def message : ServiceFault → String
  | .invalid reason => "validation failed: " ++ reason
  | .unauthorized reason => "not authorized: " ++ reason
  | .notFound what => "not found: " ++ what
  | .insufficient reason => "insufficient funds: " ++ reason
  | .node fault => "chain error: " ++ fault.message
  | .watch fault => "tracker error: " ++ fault.message
  | .ledger fault => "ledger error: " ++ fault.message
  | .store fault => "storage error: " ++ fault.message
  | .stopped => "settlement is shutting down"

def ofStore : StoreFault → ServiceFault
  | .notFound what => .notFound what
  | fault => .store fault

def ofLedger : LedgerFault → ServiceFault
  | .notFound what => .notFound what
  | .node fault => .node fault
  | .store fault => .store fault
  | .overflow wallet => .ledger (.overflow wallet)
  | .insufficient wallet balance requested =>
    .insufficient (LedgerFault.insufficient wallet balance requested).message
  | .notPositive amount => .invalid (LedgerFault.notPositive amount).message
  | .refused reason => .invalid (LedgerFault.refused reason).message
  | .addressTaken what => .invalid (LedgerFault.addressTaken what).message

def ofDenial (d : Denial) : ServiceFault := .unauthorized d.message

end ServiceFault
end Clearing

import Clearing.Node.Basic
import Clearing.Store.Basic

/-!
# Faults of the ledger
-/

namespace Clearing

inductive LedgerFault
  | notPositive (amount : Int)
  | insufficient (wallet : Nat) (balance requested : Int)
  /-- The balance would not fit in 64 bits with sign. -/
  | overflow (wallet : Nat)
  | refused (reason : String)
  | notFound (what : String)
  | addressTaken (what : String)
  | node (fault : NodeFault)
  | store (fault : StoreFault)
deriving DecidableEq, Repr

namespace LedgerFault

def message : LedgerFault → String
  | .notPositive amount => "amount must be positive, got " ++ toString amount
  | .insufficient wallet balance requested =>
    "insufficient funds in wallet " ++ toString wallet ++ ": balance " ++ toString balance ++
      ", requested " ++ toString requested
  | .overflow wallet => "balance overflow in wallet " ++ toString wallet
  | .refused reason => reason
  | .notFound what => "not found: " ++ what
  | .addressTaken what => "address already in use: " ++ what
  | .node fault => "chain client error: " ++ fault.message
  | .store fault => "storage error: " ++ fault.message

/-- What is missing in the store is missing in the ledger, and what exists
already there is an address. -/
def ofStore : StoreFault → LedgerFault
  | .notFound what => .notFound what
  | .alreadyExists what => .addressTaken what
  | .unreadable reason => .store (.unreadable reason)

end LedgerFault
end Clearing

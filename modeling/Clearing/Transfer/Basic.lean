/-!
# Transfers between wallets

A transfer moves an amount from one wallet to another once the transaction
linked to it is final. It is pending until it is settled; `isProcessed` is the
latch that one settlement attempt flips before it touches any balance.
-/

namespace Clearing

inductive TransferStatus
  | pending
  | completed
  | failed
deriving DecidableEq, Repr

def TransferStatus.text : TransferStatus → String
  | .pending => "pending"
  | .completed => "completed"
  | .failed => "failed"

structure Transfer where
  id : Nat
  source : Nat
  receiver : Nat
  amount : Int
  priceCurrency : String
  payCurrency : String
  comment : String
  sender : Nat
  receiverAddress : String
  status : TransferStatus
  isProcessed : Bool
  linkedTx : Option String
  checks : Nat
deriving DecidableEq, Repr

structure NewTransfer where
  source : Nat
  receiver : Nat
  amount : Int
  priceCurrency : String
  payCurrency : String
  comment : String
  sender : Nat
  receiverAddress : String
  linkedTx : Option String
deriving DecidableEq, Repr

def Transfer.label (t : Transfer) : String :=
  "transfer " ++ toString t.id

/-- What to do while the linked transaction is not final. -/
inductive Policy
  | failFast
  /-- Checks every `interval` milliseconds, until `limit` checks were made. -/
  | retry (interval : Nat) (limit : Nat)
deriving DecidableEq, Repr

/-- A check a minute for an hour. -/
def Policy.standard : Policy := .retry 60000 60

end Clearing

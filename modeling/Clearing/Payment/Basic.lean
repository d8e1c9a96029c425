import Clearing.Status

/-!
# Payments

A payment asks for an amount at a receiving address of its own. It carries the
status merged so far and the transaction last linked to it, with the depth
that was reported with that transaction.
-/

namespace Clearing

structure Payment where
  id : String
  owner : Nat
  amount : Int
  currency : String
  status : Status
  url : String
  receivingAddress : String
  merchantWallet : String
  linkedTx : Option String
  confirmations : Int
deriving DecidableEq, Repr

structure PaymentView where
  paymentId : String
  status : Status
  confirmations : Int
deriving DecidableEq, Repr

def Payment.view (p : Payment) : PaymentView :=
  { paymentId := p.id, status := p.status, confirmations := p.confirmations }

inductive Origin
  | tracker
  | webhook
deriving DecidableEq, Repr

def Origin.text : Origin → String
  | .tracker => "tracker"
  | .webhook => "webhook"

structure Update where
  paymentId : String
  status : Status
  origin : Origin
  txId : Option String
  depth : Option Int
deriving DecidableEq, Repr

def Update.ofSighting (paymentId : String) (s : Sighting) : Update :=
  { paymentId, status := .ofDepth s.depth, origin := .tracker
    txId := some s.txId, depth := some s.depth }

def Update.ofWebhook (paymentId : String) (status : Status) : Update :=
  { paymentId, status, origin := .webhook, txId := none, depth := none }

end Clearing

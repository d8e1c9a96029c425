import Clearing.Confirmation
import Clearing.Ledger.Basic
import Clearing.ServiceFault
import Clearing.Store.Transfers

/-!
# Requests for a transfer

A transfer is asked for by the owner of the source wallet; the receiver is
given by address. The checks are made in a fixed order, and the first that
fails is the answer: amount, source wallet, owner, receiver, balance,
transaction id. What a request or a link reads it reads in transactions before
the one that writes; they are named on their own.
-/

namespace Clearing

structure TransferRequest where
  source : Nat
  amount : Int
  sender : Nat
  receiverAddress : String
  priceCurrency : String
  payCurrency : String
  comment : String
  linkedTx : Option String
deriving DecidableEq, Repr

/-- Refuses a text that is no transaction id. A text of the right length, in
bytes, has a wrong digit. -/
def checkTxId (tx : String) : Except ServiceFault Unit :=
  if isTxId tx then .ok ()
  else
    let reason :=
      if tx.utf8ByteSize = 64 then "failed to parse hex digit" else "failed to parse hex"
    .error (.invalid ("invalid transaction id " ++ tx ++ ": " ++ reason))

namespace TransferRequest

/-- The transfer to store for a request that has read its two wallets, if it
passes every check. -/
def checkRead (r : TransferRequest) (source receiver : Except LedgerFault Wallet) :
    Except ServiceFault NewTransfer := do
  if r.amount ≤ 0 then
    throw (.invalid ("amount must be positive, got " ++ toString r.amount))
  let source ← source.mapError .ofLedger
  (Denial.check r.sender source.owner source.label).mapError .ofDenial
  let receiver ← receiver.mapError .ofLedger
  if source.balance < r.amount then
    throw (.insufficient ("wallet " ++ toString source.id ++ " holds " ++
      toString source.balance ++ ", transfer needs " ++ toString r.amount))
  match r.linkedTx with
  | some tx => checkTxId tx
  | none => pure ()
  return {
    source := source.id, receiver := receiver.id, amount := r.amount
    priceCurrency := r.priceCurrency, payCurrency := r.payCurrency, comment := r.comment
    sender := r.sender, receiverAddress := r.receiverAddress, linkedTx := r.linkedTx }

/-- The transfer to store for a request that reads both wallets in the store as
it is. -/
def check (r : TransferRequest) (s : Store) : Except ServiceFault NewTransfer :=
  r.checkRead (Ledger.wallet s r.source) (Ledger.walletAt s r.receiverAddress)

end TransferRequest

namespace Store

def requestTransfer (s : Store) (r : TransferRequest) :
    Except ServiceFault (Transfer × Store) :=
  match r.check s with
  | .error fault => .error fault
  | .ok new => .ok (s.addTransfer new)

def mayAttach (s : Store) (id sender : Nat) (tx : String) : Except ServiceFault Unit := do
  checkTxId tx
  let t ← (s.transfer id).mapError ServiceFault.ofStore
  (Denial.check sender t.sender t.label).mapError .ofDenial

/-- Links a transaction to an unprocessed transfer of the sender, in place of
the one linked before. -/
def attachTx (s : Store) (id sender : Nat) (tx : String) :
    Except ServiceFault (Transfer × Store) := do
  s.mayAttach id sender tx
  match ← (s.linkTx id tx).mapError ServiceFault.ofStore with
  | (some t, s) => return (t, s)
  | (none, _) => throw (.invalid ("transfer " ++ toString id ++ " is already processed"))

end Store
end Clearing

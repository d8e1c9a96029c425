import Clearing.Store.Basic

/-!
# Transfers in the store

A transfer is stored as pending and unprocessed. The operations that claim,
close, count or link it take effect only while it is unprocessed, so only one
of several callers gets to claim or close it.
-/

namespace Clearing.Store

/-! ### Reading -/

def transfer (s : Store) (id : Nat) : Except StoreFault Transfer :=
  match s.transfers.get? id with
  | some t => .ok t
  | none => .error (.notFound ("Transfer " ++ toString id))

def transfersFrom (s : Store) (wallet : Nat) : List Transfer :=
  s.transfers.rows.filter (·.source == wallet)

def transfersBy (s : Store) (user : Nat) : List Transfer :=
  s.transfers.rows.filter (·.sender == user)

def unprocessedTransfers (s : Store) : List Transfer :=
  s.transfers.rows.filter fun t => !t.isProcessed

/-! ### Writing -/

def putTransfer (s : Store) (t : Transfer) : Store :=
  { s with transfers := s.transfers.insert t.id t }

theorem get?_putTransfer (s : Store) (t : Transfer) (id : Nat) :
    (s.putTransfer t).transfers.get? id = if id = t.id then some t else s.transfers.get? id :=
  Table.get?_insert ..

def addTransfer (s : Store) (new : NewTransfer) : Transfer × Store :=
  let t : Transfer := {
    id := s.lastTransfer + 1, source := new.source, receiver := new.receiver
    amount := new.amount, priceCurrency := new.priceCurrency, payCurrency := new.payCurrency
    comment := new.comment, sender := new.sender, receiverAddress := new.receiverAddress
    status := .pending, isProcessed := false, linkedTx := new.linkedTx, checks := 0 }
  (t, { s with lastTransfer := t.id }.putTransfer t)

/-- Changes a transfer if it is unprocessed; gives `none` if it is not. -/
def modifyUnprocessed (s : Store) (id : Nat) (change : Transfer → Transfer) :
    Except StoreFault (Option Transfer × Store) :=
  match s.transfer id with
  | .error fault => .error fault
  | .ok t =>
    if t.isProcessed then .ok (none, s)
    else .ok (some (change t), s.putTransfer (change t))

/-- Flips the latch, before any balance is touched. -/
def claim (s : Store) (id : Nat) : Except StoreFault (Option Transfer × Store) :=
  s.modifyUnprocessed id fun t => { t with isProcessed := true }

/-- Flips the latch and sets the last status in one. -/
def closeTransfer (s : Store) (id : Nat) (status : TransferStatus) :
    Except StoreFault (Option Transfer × Store) :=
  s.modifyUnprocessed id fun t => { t with isProcessed := true, status }

def countCheck (s : Store) (id : Nat) : Except StoreFault (Option Transfer × Store) :=
  s.modifyUnprocessed id fun t => { t with checks := t.checks + 1 }

def linkTx (s : Store) (id : Nat) (txId : String) :
    Except StoreFault (Option Transfer × Store) :=
  s.modifyUnprocessed id fun t => { t with linkedTx := some txId }

/-- Sets the status of a transfer, processed or not. -/
def setTransferStatus (s : Store) (id : Nat) (status : TransferStatus) :
    Except StoreFault (Transfer × Store) :=
  match s.transfer id with
  | .error fault => .error fault
  | .ok t => .ok ({ t with status }, s.putTransfer { t with status })

end Clearing.Store

import Clearing.Store.Basic

/-!
# Payments in the store

A payment is stored with its status in written form, so it is read back only
if that form can be read. A row that does not read back is reported by every
read of it, and by every listing.
-/

namespace Clearing

/-- The payment as its stored form reads. -/
def Payment.reread (p : Payment) : Except StoreFault Payment :=
  match Status.parse p.status.text with
  | .ok status => .ok { p with status }
  | .error fault => .error (.unreadable fault.message)

namespace Store

def paymentName (id : String) : String := "Payment " ++ id

def putPayment (s : Store) (p : Payment) : Store :=
  { s with payments := s.payments.insert p.id p }

theorem get?_putPayment (s : Store) (p : Payment) (id : String) :
    (s.putPayment p).payments.get? id = if id = p.id then some p else s.payments.get? id :=
  Table.get?_insert ..

def addPayment (s : Store) (p : Payment) : Except StoreFault Store :=
  if s.payments.contains p.id then .error (.alreadyExists (paymentName p.id))
  else .ok (s.putPayment p)

def payment (s : Store) (id : String) : Except StoreFault Payment :=
  match s.payments.get? id with
  | some p => p.reread
  | none => .error (.notFound (paymentName id))

/-- Reads a payment, lets `revise` work on it, and writes the result if
`revise` says so. Gives the result in either case. -/
def revisePayment {ε : Type} (s : Store) (ofStore : StoreFault → ε) (id : String)
    (revise : Payment → Except ε (Payment × Bool)) : Except ε ((Payment × Bool) × Store) :=
  match s.payment id with
  | .error fault => .error (ofStore fault)
  | .ok p =>
    match revise p with
    | .error fault => .error fault
    | .ok (p', true) => .ok ((p', true), s.putPayment p')
    | .ok (p', false) => .ok ((p', false), s)

def removePayment (s : Store) (id : String) : Bool × Store :=
  (s.payments.contains id, { s with payments := s.payments.erase id })

def unfinishedPayments (s : Store) : Except StoreFault (List Payment) := do
  let all ← s.payments.rows.mapM Payment.reread
  return all.filter fun p => !p.status.isTerminal

end Store
end Clearing

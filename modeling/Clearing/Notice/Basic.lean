/-!
# Notices

A notice says that a payment or a transfer has taken a new status.
-/

namespace Clearing

inductive Subject
  | payment
  | transfer
deriving DecidableEq, Repr

def Subject.text : Subject → String
  | .payment => "payment"
  | .transfer => "transfer"

structure Notice where
  subject : Subject
  /-- The id of the payment or the number of the transfer. -/
  id : String
  status : String
deriving DecidableEq, Repr

end Clearing

import Clearing.Payment.Basic
import Clearing.ServiceFault
import Clearing.Text.Blank

/-!
# Requests for a payment

A merchant asks for a payment. The checks are made in a fixed order: amount,
currency, merchant wallet.
-/

namespace Clearing

structure PaymentRequest where
  owner : Nat
  amount : Int
  merchantWallet : String
  currency : String
deriving DecidableEq, Repr

/-- The request without blanks around its texts and with the currency in upper
case, if it passes every check. -/
def PaymentRequest.check (r : PaymentRequest) : Except ServiceFault PaymentRequest :=
  if r.amount ≤ 0 then
    .error (.invalid ("amount must be positive, got " ++ toString r.amount))
  else if Text.allBlank r.currency then .error (.invalid "currency is required")
  else if Text.allBlank r.merchantWallet then .error (.invalid "merchant wallet is required")
  else .ok { r with
    merchantWallet := Text.trim r.merchantWallet
    currency := Text.upper (Text.trim r.currency) }

/-- The payment that a checked request opens: it waits at a fresh address. -/
def Payment.opened (baseUrl id address : String) (r : PaymentRequest) : Payment where
  id := id
  owner := r.owner
  amount := r.amount
  currency := r.currency
  status := .waiting
  url := Text.trimEndOf '/' baseUrl ++ "/pay/" ++ id
  receivingAddress := address
  merchantWallet := r.merchantWallet
  linkedTx := none
  confirmations := 0

end Clearing

import Clearing.ServiceFault

/-!
# Faults of a webhook delivery
-/

namespace Clearing

inductive WebhookFault
  | missingSignature
  | invalidSignature
  | malformed (reason : String)
  /-- The provider saw the payment at another address. -/
  | otherAddress (paymentId given : String)
  | service (fault : ServiceFault)
deriving DecidableEq, Repr

def WebhookFault.message : WebhookFault → String
  | .missingSignature => "missing webhook signature"
  | .invalidSignature => "invalid webhook signature"
  | .malformed reason => "invalid webhook payload: " ++ reason
  | .otherAddress paymentId given =>
    "address " ++ given ++ " does not match payment " ++ paymentId
  | .service fault => fault.message

end Clearing

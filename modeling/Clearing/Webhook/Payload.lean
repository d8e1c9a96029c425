import Clearing.Json.Decoder
import Clearing.Status
import Clearing.Webhook.Fault

/-!
# Bodies of webhooks

A body names a payment and its new status, and may name the address at which
the provider saw the payment. It is a JSON object, or a list of the three in
this order.
-/

namespace Clearing.Webhook

structure Payload where
  paymentId : String
  status : Status
  address : Option String
deriving DecidableEq, Repr

/-- A body, while it is read; an address that was `null` is set. -/
structure PayloadParts where
  paymentId : Option String
  status : Option String
  address : Option (Option String)

namespace Payload

def shape : Json.Read.Shape PayloadParts where
  title := "struct WebhookPayload"
  fields := [
    { name := "payment_id", isSet := (·.paymentId.isSome), mayLack := false,
      read := fun s bs =>
        (Json.Read.text bs).map fun r => ({ s with paymentId := some r.1 }, r.2) },
    { name := "status", isSet := (·.status.isSome), mayLack := false,
      read := fun s bs =>
        (Json.Read.text bs).map fun r => ({ s with status := some r.1 }, r.2) },
    { name := "address", isSet := (·.address.isSome), mayLack := true,
      read := fun s bs =>
        (Json.Read.optional Json.Read.text bs).map fun r =>
          ({ s with address := some r.1 }, r.2) }]

def decode : Json.Read.Decoder (String × String × Option String) := fun bs => do
  let (parts, bs) ← Json.Read.record shape ⟨none, none, none⟩ bs
  match parts.paymentId, parts.status with
  | some paymentId, some status => .ok ((paymentId, status, parts.address.join), bs)
  | none, _ => .error (.missingField "payment_id")
  | _, none => .error (.missingField "status")

def read (body : List UInt8) : Except WebhookFault Payload :=
  match Json.Read.document decode body with
  | .error fault => .error (.malformed fault.message)
  | .ok (paymentId, status, address) =>
    match Status.parse status with
    | .error fault => .error (.malformed fault.message)
    | .ok status => .ok { paymentId, status, address }

end Payload
end Clearing.Webhook

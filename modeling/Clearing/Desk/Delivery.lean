import Clearing.Desk.Updates
import Clearing.Webhook.Payload
import Clearing.Webhook.Signature

/-!
# Deliveries from the provider

A delivery is a body with its signature. The signature is checked before the
body is looked at; then the body is read, the address in it is compared, and
the status is merged like any other update.
-/

namespace Clearing.Desk

def authenticate (d : Desk) (signature : Option String) (body : List UInt8) :
    Except WebhookFault Unit :=
  match signature with
  | none => .error .missingSignature
  | some signature =>
    if Webhook.verify d.options.secret body signature then .ok () else .error .invalidSignature

/-- Compares the address in a payload, if it is filled, with the payment's. -/
def checkAddress (d : Desk) (payload : Webhook.Payload) : Except WebhookFault Unit :=
  match payload.address.filter fun a => !a.isEmpty with
  | none => .ok ()
  | some address =>
    match d.store.payment payload.paymentId with
    | .error fault => .error (.service (.ofStore fault))
    | .ok p =>
      if p.receivingAddress = address then .ok ()
      else .error (.otherAddress payload.paymentId address)

def requestedUpdate (d : Desk) (signature : Option String) (body : List UInt8) :
    Except WebhookFault Update := do
  d.authenticate signature body
  let payload ← Webhook.Payload.read body
  d.checkAddress payload
  return .ofWebhook payload.paymentId payload.status

def deliver (d : Desk) (signature : Option String) (body : List UInt8) :
    Except WebhookFault Outcome × Desk :=
  match d.requestedUpdate signature body with
  | .error fault => (.error fault, d)
  | .ok u =>
    let (outcome, d) := d.update u
    (outcome.mapError .service, d)

end Clearing.Desk

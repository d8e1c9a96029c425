import Clearing.Json.Value
import Clearing.Webhook.Fault

/-!
# Requests, responses and what a fault becomes

A fault is answered with a status and one sentence. Faults inside the service
are answered without detail.
-/

namespace Clearing.Http

structure Request where
  method : String
  /-- The path as it was sent, with the query. -/
  target : String
  headers : List (String × String)
  body : List UInt8

structure Response where
  status : Nat
  contentType : Option String
  body : String
deriving DecidableEq, Repr

namespace Response

def bare (status : Nat) : Response := { status, contentType := none, body := "" }

def json (status : Nat) (value : Json) : Response :=
  { status, contentType := some "application/json", body := value.render }

def text (status : Nat) (body : String) : Response :=
  { status, contentType := some "text/plain; charset=utf-8", body }

end Response

/-- A status with the sentence that explains it. -/
structure Refusal where
  status : Nat
  reason : String
deriving DecidableEq, Repr

namespace Refusal

def badRequest (reason : String) : Refusal := { status := 400, reason }

def unauthorized (reason : String) : Refusal := { status := 401, reason }

def forbidden (reason : String) : Refusal := { status := 403, reason }

def notFound (reason : String) : Refusal := { status := 404, reason }

def unprocessable (reason : String) : Refusal := { status := 422, reason }

def internal (reason : String) : Refusal := { status := 500, reason }

def unavailable (reason : String) : Refusal := { status := 503, reason }

def ofService (fault : ServiceFault) : Refusal :=
  match fault with
  | .invalid _ => badRequest fault.message
  | .unauthorized _ => forbidden fault.message
  | .notFound _ => notFound fault.message
  | .insufficient _ => unprocessable fault.message
  | .node _ => unavailable fault.message
  | .stopped => unavailable fault.message
  | .watch _ => internal "internal error"
  | .ledger _ => internal "internal error"
  | .store _ => internal "internal error"

def ofWebhook (fault : WebhookFault) : Refusal :=
  match fault with
  | .missingSignature => unauthorized fault.message
  | .invalidSignature => unauthorized fault.message
  | .malformed _ => badRequest fault.message
  | .otherAddress _ _ => unprocessable fault.message
  | .service inner => ofService inner

def response (r : Refusal) : Response :=
  .json r.status (.record [("error", .text r.reason)])

end Refusal
end Clearing.Http

import Clearing.Desk.Calls
import Clearing.Desk.Delivery
import Clearing.Http.Basic
import Clearing.Text.Percent

/-!
# Routes

The service answers at its health paths, at the status path of each payment,
and at the webhook path. A path matches as it was sent, letter by letter and
without its query; the id of a payment is one segment with percent escapes. A
known path with another method is refused, and any path answers `OPTIONS`.
-/

namespace Clearing.Http

inductive Route
  | ready
  | live
  /-- The status of a payment, its id as it was sent. -/
  | paymentStatus (segment : String)
  | webhook
deriving DecidableEq, Repr

namespace Route

def segments (path : List Char) : List (List Char) :=
  path.splitOn '/'

def pathOf (target : String) : List Char :=
  target.toList.takeWhile fun c => c != '?' && c != '#'

def ofPath? (path : List Char) : Option Route :=
  match (segments path).map String.ofList with
  | ["", "health"] => some .ready
  | ["", "health", "ready"] => some .ready
  | ["", "health", "live"] => some .live
  | ["", "v1", "webhooks", "payment"] => some .webhook
  | ["", "v1", "payments", id, "status"] => some (.paymentStatus id)
  | _ => none

def method : Route → String
  | .webhook => "POST"
  | _ => "GET"

end Route

def signatureHeader : String := "x-webhook-signature"

/-- A header value can be read as text if it is visible ASCII with blanks and
tabs. -/
def isPlain (value : String) : Bool :=
  value.toList.all fun c => c == '\t' || (32 ≤ c.toNat && c.toNat < 127)

/-- The first signature of a request, if it can be read. -/
def Request.signature (r : Request) : Option String :=
  match r.headers.find? fun h => Text.lower h.1 == signatureHeader with
  | some (_, value) => if isPlain value then some value else none
  | none => none

def health (d : Desk) : Json :=
  .record [("status", .text "ok"), ("checks", .record [("service", .text "ok"),
    ("database", .text "ok"), ("active_watches", .number d.registry.size)])]

def view (v : PaymentView) : Json :=
  .record [("payment_id", .text v.paymentId), ("status", .text v.status.text),
    ("confirmations", .number v.confirmations)]

def acknowledgement (o : Outcome) : Json :=
  .record [("payment_id", .text o.payment.id), ("status", .text o.payment.status.text),
    ("applied", .bool o.isApplied)]

def answerStatus (d : Desk) (segment : String) : Response × Desk :=
  let bytes := ByteArray.mk (Text.percentDecode segment.toUTF8.toList).toArray
  match String.fromUTF8? bytes with
  | none => (.text 400 "Invalid URL: Invalid UTF-8 in \x60payment_id\x60", d)
  | some id =>
    match d.paymentStatus id with
    | (.ok v, d) => (.json 200 (view v), d)
    | (.error fault, d) => ((Refusal.ofService fault).response, d)

def answerDelivery (d : Desk) (r : Request) : Response × Desk :=
  match d.deliver r.signature r.body with
  | (.ok outcome, d) => (.json 200 (acknowledgement outcome), d)
  | (.error fault, d) => ((Refusal.ofWebhook fault).response, d)

def answer (d : Desk) (r : Request) : Route → Response × Desk
  | .ready => (.json 200 (health d), d)
  | .live => (.json 200 (.record [("status", .text "ok")]), d)
  | .paymentStatus segment => answerStatus d segment
  | .webhook => answerDelivery d r

/-- Answers a request. `HEAD` is answered like `GET`, without the body. -/
def handle (d : Desk) (r : Request) : Response × Desk :=
  if r.method = "OPTIONS" then (.bare 200, d)
  else
    match Route.ofPath? (Route.pathOf r.target) with
    | none => (.bare 404, d)
    | some route =>
      if r.method = route.method then answer d r route
      else if r.method = "HEAD" ∧ route.method = "GET" then
        let (response, d) := answer d r route
        ({ response with body := "" }, d)
      else (.bare 405, d)

end Clearing.Http

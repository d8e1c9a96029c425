import Clearing.Json.Decoder
import Clearing.Json.Value
import Clearing.Node.Basic
import Clearing.Node.Url

/-!
# Talking to the node

Each call is one request with a JSON body: a running number, the name of the
method and its parameters. The answer holds a result or a refusal. It is read
before its HTTP status is looked at, because the node sends refusals with an
error status. The refusal "no information" means no transactions for a search
and an unknown transaction for a look-up.
-/

namespace Clearing.Node

/-- The access to a node, with the number of the next request. -/
structure Client where
  url : String
  user : String
  password : String
  nextId : Nat
deriving DecidableEq, Repr

structure Request where
  method : String
  url : String
  authorization : String
  contentType : String
  body : Json

structure Answer where
  status : Nat
  reason : String
  body : List UInt8

/-- Carries a request to the node; `none` if no answer came back. -/
abbrev Transport := Request → Option Answer

def Client.ofUrl (url user password : String) : Except NodeFault Client :=
  match Url.check url with
  | .ok () => .ok { url, user, password, nextId := 1 }
  | .error fault => .error (.badUrl fault.message)

/-! ### Requests -/

def base64Digit (n : Nat) : Char :=
  "ABCDEFGHIJKLMNOPQRSTUVWXYZabcdefghijklmnopqrstuvwxyz0123456789+/".toList.getD n '='

def base64 : List UInt8 → List Char
  | [] => []
  | [a] => [base64Digit (a.toNat / 4), base64Digit (a.toNat % 4 * 16), '=', '=']
  | [a, b] =>
    [base64Digit (a.toNat / 4), base64Digit (a.toNat % 4 * 16 + b.toNat / 16),
      base64Digit (b.toNat % 16 * 4), '=']
  | a :: b :: c :: rest =>
    base64Digit (a.toNat / 4) :: base64Digit (a.toNat % 4 * 16 + b.toNat / 16) ::
      base64Digit (b.toNat % 16 * 4 + c.toNat / 64) :: base64Digit (c.toNat % 64) :: base64 rest

def basicAuthorization (user password : String) : String :=
  "Basic " ++ String.ofList (base64 (user ++ ":" ++ password).toUTF8.toList)

def Client.request (c : Client) (method : String) (params : List Json) : Request where
  method := "POST"
  url := c.url
  authorization := basicAuthorization c.user c.password
  contentType := "application/json"
  body := .record [("jsonrpc", .text "1.0"), ("id", .number c.nextId), ("method", .text method),
    ("params", .list params)]

/-! ### Answers -/

structure RefusalParts where
  code : Option Int
  reason : Option String

def refusal : Json.Read.Decoder (Int × String) := fun bs => do
  let shape : Json.Read.Shape RefusalParts := {
    title := "a refusal"
    fields := [
      { name := "code", isSet := (·.code.isSome), mayLack := false,
        read := fun s bs =>
          (Json.Read.integer bs).map fun r => ({ s with code := some r.1 }, r.2) },
      { name := "message", isSet := (·.reason.isSome), mayLack := false,
        read := fun s bs =>
          (Json.Read.text bs).map fun r => ({ s with reason := some r.1 }, r.2) }] }
  let (parts, bs) ← Json.Read.record shape ⟨none, none⟩ bs
  match parts.code, parts.reason with
  | some code, some reason => .ok ((code, reason), bs)
  | none, _ => .error (.missingField "code")
  | _, none => .error (.missingField "message")

/-- An answer, while it is read; a field that was `null` is set. -/
structure AnswerParts (α : Type) where
  result : Option (Option α)
  error : Option (Option (Int × String))

def answer {α : Type} (d : Json.Read.Decoder α) :
    Json.Read.Decoder (Option α × Option (Int × String)) :=
  fun bs => do
    let shape : Json.Read.Shape (AnswerParts α) := {
      title := "an answer"
      fields := [
        { name := "result", isSet := (·.result.isSome), mayLack := false,
          read := fun s bs =>
            (Json.Read.optional d bs).map fun r => ({ s with result := some r.1 }, r.2) },
        { name := "error", isSet := (·.error.isSome), mayLack := false,
          read := fun s bs =>
            (Json.Read.optional refusal bs).map fun r => ({ s with error := some r.1 }, r.2) }] }
    let (parts, bs) ← Json.Read.record shape ⟨none, none⟩ bs
    return ((parts.result.join, parts.error.join), bs)

def foundTx : Json.Read.Decoder String := fun bs => do
  let shape : Json.Read.Shape (Option String) := {
    title := "a transaction"
    fields := [
      { name := "txid", isSet := Option.isSome, mayLack := false,
        read := fun _ bs => (Json.Read.text bs).map fun r => (some r.1, r.2) }] }
  let (txId, bs) ← Json.Read.record shape none bs
  match txId with
  | some txId => .ok (txId, bs)
  | none => .error (.missingField "txid")

/-- The depth of a transaction; it is missing while it is not mined. -/
def txDepth : Json.Read.Decoder Int := fun bs => do
  let shape : Json.Read.Shape (Option Int) := {
    title := "a transaction"
    fields := [
      { name := "confirmations", isSet := Option.isSome, mayLack := true,
        read := fun _ bs => (Json.Read.integer bs).map fun r => (some r.1, r.2) }] }
  let (depth, bs) ← Json.Read.record shape none bs
  return (depth.getD 0, bs)

def interpret {α : Type} (d : Json.Read.Decoder α) (method : String) :
    Option Answer → Except NodeFault α
  | none => .error (.unreachable method)
  | some a =>
    match Json.Read.document (answer d) a.body with
    | .error _ =>
      .error (.badAnswer (method ++ " (HTTP " ++ toString a.status ++ " " ++ a.reason ++
        "): error decoding response body"))
    | .ok (_, some (code, reason)) => .error (.refused code reason)
    | .ok (some result, none) => .ok result
    | .ok (none, none) => .error (.badAnswer (method ++ ": empty result"))

/-! ### Calls -/

def noInformation : Int := -5

def Client.call {α : Type} (c : Client) (wire : Transport) (d : Json.Read.Decoder α)
    (method : String) (params : List Json) : Except NodeFault α × Client :=
  (interpret d method (wire (c.request method params)), { c with nextId := c.nextId + 1 })

def Client.generateAddress (c : Client) (wire : Transport) : Except NodeFault String × Client :=
  c.call wire Json.Read.text "getnewaddress" []

/-- The transactions at an address, `count` at most behind the first `skip`. -/
def Client.search (c : Client) (wire : Transport) (address : String) (skip count : Nat) :
    Except NodeFault (List String) × Client :=
  let (r, c) := c.call wire (Json.Read.items foundTx) "searchrawtransactions"
    [.text address, .number 1, .number skip, .number count, .number 0, .bool false]
  match r with
  | .error (.refused code reason) =>
    (if code = noInformation then .ok [] else .error (.refused code reason), c)
  | r => (r, c)

def Client.depth (c : Client) (wire : Transport) (txId : String) : Except NodeFault Int × Client :=
  let (r, c) := c.call wire txDepth "getrawtransaction" [.text txId, .number 1]
  match r with
  | .error (.refused code reason) =>
    (if code = noInformation then .error (.unknownTx txId) else .error (.refused code reason), c)
  | r => (r, c)

end Clearing.Node

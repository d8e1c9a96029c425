import Clearing.Json.Decoder
import Clearing.Json.Value
import Clearing.Status

/-!
# Statuses in JSON

A status stands in JSON as a string with its written form. A string that is
no status is refused as soon as it is read.
-/

namespace Clearing.Status

def decode : Json.Read.Decoder Status := fun bs => do
  let (written, bs) ← Json.Read.text bs
  match parse written with
  | .ok status => .ok (status, bs)
  | .error fault => .error (.refused fault.message)

def ofJson (bs : List UInt8) : Except JsonFault Status := Json.Read.document decode bs

def toJson (s : Status) : Json := .text s.text

end Clearing.Status

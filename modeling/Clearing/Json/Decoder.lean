import Clearing.Json.Reader

/-!
# Reading JSON of a given shape

A decoder reads one value of a type from the front of a text. A record may be
written as an object, whose unknown fields are passed over and whose known
fields may stand once each, or as a list of its fields in order.
-/

namespace Clearing.Json.Read

/-- Reads one value of the type from the front of a text. -/
abbrev Decoder (α : Type) := Scan α

def Number.found : Number → String
  | .whole n => "integer \x60" ++ toString n ++ "\x60"
  | .float x => "floating point \x60" ++ Decimal.text x ++ "\x60"

/-- The fault of a value that is not what was expected. A word, a number or a
string is read first, and a fault in it comes before the wrong type. -/
def mismatch (expected : String) : List UInt8 → JsonFault
  | [] => .endInValue
  | b :: bs =>
    if b = byte 'n' then after (word ['u', 'l', 'l'] bs) fun _ => "null"
    else if b = byte 't' then after (word ['r', 'u', 'e'] bs) fun _ => "boolean \x60true\x60"
    else if b = byte 'f' then
      after (word ['a', 'l', 's', 'e'] bs) fun _ => "boolean \x60false\x60"
    else if b = byte '-' || isDigit b then after (number (b :: bs)) Number.found
    else if b = byte '"' then after (string bs) fun s => "string " ++ Text.quote s
    else if b = byte '[' then .wrongType "sequence" expected
    else if b = byte '{' then .wrongType "map" expected
    else .expectedValue
where
  after {α : Type} (r : Except JsonFault (α × List UInt8)) (found : α → String) : JsonFault :=
    match r with
    | .error fault => fault
    | .ok (a, _) => .wrongType (found a) expected

def text : Decoder String := fun bs =>
  match skipBlank bs with
  | [] => .error .endInValue
  | b :: bs => if b = byte '"' then string bs else .error (mismatch "a string" (b :: bs))

def optional {α : Type} (d : Decoder α) : Decoder (Option α) := fun bs =>
  match skipBlank bs with
  | [] => .error .endInValue
  | b :: bs =>
    if b = byte 'n' then (word ['u', 'l', 'l'] bs).map fun r => (none, r.2)
    else (d (b :: bs)).map fun r => (some r.1, r.2)

def integer : Decoder Int := fun bs =>
  match skipBlank bs with
  | [] => .error .endInValue
  | b :: bs =>
    if b = byte '-' || isDigit b then
      match number (b :: bs) with
      | .error fault => .error fault
      | .ok (.whole n, bs) =>
        if n < UInt64.size / 2 then .ok (n, bs)
        else .error (.wrongValue (Number.whole n).found "a 64-bit integer")
      | .ok (x, _) => .error (.wrongType x.found "a 64-bit integer")
    else .error (mismatch "a 64-bit integer" (b :: bs))

/-- Stands before the next item of a list: `none` behind the last one. -/
def nextItem (first : Bool) (bs : List UInt8) : Except JsonFault (Option (List UInt8)) :=
  match skipBlank bs with
  | [] => .error .endInList
  | b :: bs =>
    if b = byte ']' then .ok none
    else if first then .ok (some (b :: bs))
    else if b = byte ',' then
      match skipBlank bs with
      | [] => .error .endInValue
      | c :: cs => if c = byte ']' then .error .trailingComma else .ok (some (c :: cs))
    else .error .expectedListEnd

def endList : Scan Unit := fun bs =>
  match skipBlank bs with
  | [] => .error .endInList
  | b :: bs =>
    if b = byte ']' then .ok ((), bs)
    else if b = byte ',' ∧ (skipBlank bs).head? = some (byte ']') then .error .trailingComma
    else .error .trailingCharacters

/-- Reads a list of any length; `fuel` bounds the items. -/
def itemsFrom {α : Type} (d : Decoder α) : Nat → Bool → List α → Decoder (List α)
  | 0, _, _, _ => .error .endInList
  | fuel + 1, first, acc, bs =>
    match nextItem first bs with
    | .error fault => .error fault
    | .ok none => (endList bs).map fun r => (acc.reverse, r.2)
    | .ok (some bs) =>
      match d bs with
      | .error fault => .error fault
      | .ok (a, bs) => itemsFrom d fuel false (a :: acc) bs

def items {α : Type} (d : Decoder α) : Decoder (List α) := fun bs =>
  match skipBlank bs with
  | [] => .error .endInValue
  | b :: bs =>
    if b = byte '[' then itemsFrom d (bs.length + 1) true [] bs
    else .error (mismatch "a sequence" (b :: bs))

/-! ### Records -/

/-- A field of a record that is being read into `σ`. -/
structure Field (σ : Type) where
  name : String
  isSet : σ → Bool
  read : σ → Decoder σ
  /-- The field may be missing at the end of a list. -/
  mayLack : Bool

/-- The fields of a record in order, and what it is called in messages. -/
structure Shape (σ : Type) where
  title : String
  fields : List (Field σ)

/-- Reads the fields of an object behind its bracket; `fuel` bounds them. -/
def members {σ : Type} (shape : Shape σ) : Nat → Bool → σ → Decoder σ
  | 0, _, _, _ => .error .endInObject
  | fuel + 1, first, s, bs =>
    match skipBlank bs with
    | [] => .error .endInObject
    | b :: bs =>
      if b = byte '}' then .ok (s, bs)
      else if !first && b ≠ byte ',' then .error .expectedObjectEnd
      else
        match if first then b :: bs else skipBlank bs with
        | [] => .error .endInValue
        | q :: bs =>
          if q = byte '}' then .error .trailingComma
          else if q ≠ byte '"' then .error .keyNotString
          else
            match member shape s bs with
            | .error fault => .error fault
            | .ok (s, bs) => members shape fuel false s bs
where
  member (shape : Shape σ) (s : σ) : Decoder σ := fun bs => do
    let (key, bs) ← string bs
    match shape.fields.find? (·.name == key) with
    | none =>
      let bs ← colon bs
      let ((), bs) ← skipValue bs
      return (s, bs)
    | some field =>
      if field.isSet s then .error (.duplicateField key)
      else field.read s (← colon bs)
  colon (bs : List UInt8) : Except JsonFault (List UInt8) :=
    match skipBlank bs with
    | [] => .error .endInObject
    | b :: bs => if b = byte ':' then .ok bs else .error .expectedColon

/-- Reads the fields of a record written as a list; `index` counts those
read. -/
def elements {σ : Type} (title : String) (count : Nat) : Nat → List (Field σ) → σ → Decoder σ
  | _, [], s, bs => (endList bs).map fun r => (s, r.2)
  | index, field :: fields, s, bs =>
    match nextItem (index == 0) bs with
    | .error fault => .error fault
    | .ok none =>
      if field.mayLack then elements title count (index + 1) fields s bs
      else .error (.wrongLength index expecting)
    | .ok (some bs) =>
      match field.read s bs with
      | .error fault => .error fault
      | .ok (s, bs) => elements title count (index + 1) fields s bs
where
  expecting : String :=
    title ++ " with " ++ toString count ++ (if count = 1 then " element" else " elements")

/-- Reads a record, as an object or as a list. -/
def record {σ : Type} (shape : Shape σ) (s : σ) : Decoder σ := fun bs =>
  match skipBlank bs with
  | [] => .error .endInValue
  | b :: bs =>
    if b = byte '{' then members shape (bs.length + 1) true s bs
    else if b = byte '[' then elements shape.title shape.fields.length 0 shape.fields s bs
    else .error (mismatch shape.title (b :: bs))

/-- Reads a text that holds one value and blanks. -/
def document {α : Type} (d : Decoder α) (bs : List UInt8) : Except JsonFault α :=
  match d bs with
  | .error fault => .error fault
  | .ok (a, bs) => if (skipBlank bs).isEmpty then .ok a else .error .trailingCharacters

end Clearing.Json.Read

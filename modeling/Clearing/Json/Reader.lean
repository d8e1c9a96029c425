import Clearing.Decimal.Shortest
import Clearing.Json.Fault
import Clearing.Text.Hex
import Clearing.Text.Quoted

/-!
# Reading the parts of a JSON text

A text is a list of bytes. Each function here reads one part from the front
and returns it with the bytes behind it: blanks, words, numbers and strings. A
string has to be UTF-8 and its surrogate escapes have to come in pairs, unless
it is only skipped. Skipping a value looks at its brackets and its form and at
nothing else, whatever its depth.
-/

namespace Clearing.Json.Read

/-- A reader of one part from the front of a text. -/
abbrev Scan (α : Type) := List UInt8 → Except JsonFault (α × List UInt8)

def byte (c : Char) : UInt8 := UInt8.ofNat c.toNat

def isDigit (b : UInt8) : Bool := byte '0' ≤ b && b ≤ byte '9'

def skipBlank (bs : List UInt8) : List UInt8 :=
  bs.dropWhile fun b => b == 0x20 || b == 0x0A || b == 0x09 || b == 0x0D

def word : List Char → Scan Unit
  | [], bs => .ok ((), bs)
  | _ :: _, [] => .error .endInValue
  | c :: cs, b :: bs => if b = byte c then word cs bs else .error .expectedWord

/-! ### Strings -/

def hex4 : Scan Nat
  | a :: b :: c :: d :: bs =>
    match value? a, value? b, value? c, value? d with
    | some a, some b, some c, some d => .ok (((a * 16 + b) * 16 + c) * 16 + d, bs)
    | _, _, _, _ => .error .invalidEscape
  | _ => .error .endInString
where
  value? (b : UInt8) : Option Nat := Text.Hex.value? (Char.ofNat b.toNat)

def utf8 (n : Nat) : List UInt8 :=
  (Char.ofNat n).toString.toUTF8.toList

/-- The character of a hexadecimal escape, of two escapes if the first is
half of a pair. -/
def unicodeEscape : Scan (List UInt8) := fun bs => do
  let (n, bs) ← hex4 bs
  if 0xDC00 ≤ n ∧ n ≤ 0xDFFF then .error .loneSurrogate
  else if n < 0xD800 ∨ 0xDBFF < n then .ok (utf8 n, bs)
  else
    match bs with
    | [] => .error .endInString
    | b :: bs =>
      if b ≠ byte '\\' then .error .endOfHexEscape
      else
        match bs with
        | [] => .error .endInString
        | b :: bs =>
          if b ≠ byte 'u' then .error .endOfHexEscape
          else do
            let (m, bs) ← hex4 bs
            if m < 0xDC00 ∨ 0xDFFF < m then .error .loneSurrogate
            else .ok (utf8 (0x10000 + (n - 0xD800) * 0x400 + (m - 0xDC00)), bs)

def simpleEscape? (b : UInt8) : Option UInt8 :=
  if b = byte '"' ∨ b = byte '\\' ∨ b = byte '/' then some b
  else if b = byte 'b' then some 0x08
  else if b = byte 'f' then some 0x0C
  else if b = byte 'n' then some 0x0A
  else if b = byte 'r' then some 0x0D
  else if b = byte 't' then some 0x09
  else none

/-- Reads up to the closing quote; `acc` holds the bytes so far, last first,
and `fuel` bounds the steps. -/
def stringBytes : Nat → List UInt8 → Scan (List UInt8)
  | 0, _, _ => .error .endInString
  | _ + 1, _, [] => .error .endInString
  | fuel + 1, acc, b :: bs =>
    if b = byte '"' then .ok (acc.reverse, bs)
    else if b = byte '\\' then
      match bs with
      | [] => .error .endInString
      | e :: bs =>
        if e = byte 'u' then
          match unicodeEscape bs with
          | .error fault => .error fault
          | .ok (cs, bs) => stringBytes fuel (cs.reverse ++ acc) bs
        else
          match simpleEscape? e with
          | some c => stringBytes fuel (c :: acc) bs
          | none => .error .invalidEscape
    else if b < 0x20 then .error .controlCharacter
    else stringBytes fuel (b :: acc) bs

def string : Scan String := fun bs => do
  let (content, bs) ← stringBytes (bs.length + 1) [] bs
  match String.fromUTF8? content.toByteArray with
  | some s => .ok (s, bs)
  | none => .error .invalidCodePoint

def skipString : Nat → Scan Unit
  | 0, _ => .error .endInString
  | _ + 1, [] => .error .endInString
  | fuel + 1, b :: bs =>
    if b = byte '"' then .ok ((), bs)
    else if b = byte '\\' then
      match bs with
      | [] => .error .endInString
      | e :: bs =>
        if e = byte 'u' then
          match hex4 bs with
          | .error fault => .error fault
          | .ok (_, bs) => skipString fuel bs
        else if (simpleEscape? e).isSome then skipString fuel bs
        else .error .invalidEscape
    else if b < 0x20 then .error .controlCharacter
    else skipString fuel bs

/-! ### Numbers -/

inductive Number
  | whole (n : Int)
  | float (x : Float)

/-- The written parts of a number: sign, digits before and behind the point,
and the exponent if one is written. -/
structure NumberParts where
  negative : Bool
  whole : List UInt8
  fraction : List UInt8
  exponent : Option Int

def digitsValue (ds : List UInt8) : Nat :=
  ds.foldl (fun n d => 10 * n + (d.toNat - 48)) 0

/-- Reads the digits before the point: no zero in front of another digit. -/
def wholeDigits : Scan (List UInt8)
  | [] => .error .endInValue
  | b :: bs =>
    if b = byte '0' then
      if (bs.head?.map isDigit).getD false then .error .invalidNumber else .ok ([b], bs)
    else if isDigit b then .ok (b :: bs.takeWhile isDigit, bs.dropWhile isDigit)
    else .error .invalidNumber

def fractionDigits : Scan (List UInt8)
  | [] => .ok ([], [])
  | b :: bs =>
    if b ≠ byte '.' then .ok ([], b :: bs)
    else if (bs.takeWhile isDigit).isEmpty then
      .error (if bs.isEmpty then .endInValue else .invalidNumber)
    else .ok (bs.takeWhile isDigit, bs.dropWhile isDigit)

def exponent : Scan (Option Int)
  | [] => .ok (none, [])
  | b :: bs =>
    if b ≠ byte 'e' ∧ b ≠ byte 'E' then .ok (none, b :: bs)
    else
      let negative := bs.head? = some (byte '-')
      let bs := if negative ∨ bs.head? = some (byte '+') then bs.drop 1 else bs
      match bs with
      | [] => .error .endInValue
      | d :: _ =>
        if !isDigit d then .error .invalidNumber
        else
          let n : Int := digitsValue (bs.takeWhile isDigit)
          .ok (some (if negative then -n else n), bs.dropWhile isDigit)

def numberParts (negative : Bool) : Scan NumberParts := fun bs => do
  let (whole, bs) ← wholeDigits bs
  let (fraction, bs) ← fractionDigits bs
  let (exponent, bs) ← exponent bs
  return ({ negative, whole, fraction, exponent }, bs)

/-- The double nearest to the number; too large a number is a fault. -/
def NumberParts.float (p : NumberParts) : Except JsonFault Float :=
  let mantissa := digitsValue (p.whole ++ p.fraction)
  let e := p.exponent.getD 0 - p.fraction.length
  let size : Int := (p.whole ++ p.fraction).length
  let x : Float :=
    if mantissa = 0 ∨ e + size < -400 then 0
    else if e < 0 then Float.ofScientific mantissa true (-e).toNat
    else if 400 < e then 1 / 0
    else Float.ofScientific mantissa false e.toNat
  if x.isInf then .error .numberOutOfRange
  else .ok (if p.negative then -x else x)

/-- Whole numbers of 64 bits stay whole, the others become doubles, and so
does a negative zero. -/
def NumberParts.value (p : NumberParts) : Except JsonFault Number :=
  let n := digitsValue p.whole
  if p.fraction.isEmpty && p.exponent.isNone && n < UInt64.size &&
      !(p.negative && (n = 0 || UInt64.size / 2 < n)) then
    .ok (.whole (if p.negative then -(n : Int) else n))
  else p.float.map .float

def number : Scan Number := fun bs => do
  let negative := bs.head? = some (byte '-')
  let (parts, bs) ← numberParts negative (if negative then bs.drop 1 else bs)
  return (← parts.value, bs)

/-! ### Skipping -/

/-- The brackets a skipped value is inside of. -/
inductive Frame
  | list
  | object
deriving DecidableEq, Repr

def skipKey (bs : List UInt8) : Except JsonFault (List UInt8) :=
  match skipBlank bs with
  | [] => .error .endInObject
  | b :: bs =>
    if b ≠ byte '"' then .error .keyNotString
    else do
      let ((), bs) ← skipString (bs.length + 1) bs
      match skipBlank bs with
      | [] => .error .endInObject
      | b :: bs => if b = byte ':' then .ok bs else .error .expectedColon

def skipScalar : Scan Unit
  | [] => .error .endInValue
  | b :: bs =>
    if b = byte 'n' then word ['u', 'l', 'l'] bs
    else if b = byte 't' then word ['r', 'u', 'e'] bs
    else if b = byte 'f' then word ['a', 'l', 's', 'e'] bs
    else if b = byte '"' then skipString (bs.length + 1) bs
    else if b = byte '-' then (numberParts true bs).map fun r => ((), r.2)
    else if isDigit b then (numberParts false (b :: bs)).map fun r => ((), r.2)
    else .error .expectedValue

/-- Passes over values inside the open brackets `frames` until all are closed;
the flag tells whether a value comes next or one has just ended, and
`fuel` bounds the steps. -/
def skipInside : Nat → Bool → List Frame → List UInt8 → Except JsonFault (List UInt8)
  | 0, _, _, _ => .error .endInValue
  | _ + 1, false, [], bs => .ok bs
  | fuel + 1, false, frame :: frames, bs =>
    match frame, skipBlank bs with
    | .list, [] => .error .endInList
    | .object, [] => .error .endInObject
    | .list, b :: bs =>
      if b = byte ',' then skipInside fuel true (.list :: frames) bs
      else if b = byte ']' then skipInside fuel false frames bs
      else .error .expectedListEnd
    | .object, b :: bs =>
      if b = byte ',' then
        match skipKey bs with
        | .error fault => .error fault
        | .ok bs => skipInside fuel true (.object :: frames) bs
      else if b = byte '}' then skipInside fuel false frames bs
      else .error .expectedObjectEnd
  | fuel + 1, true, frames, bs =>
    match skipBlank bs with
    | [] => .error .endInValue
    | b :: bs =>
      if b = byte '[' then
        match skipBlank bs with
        | [] => .error .endInList
        | c :: cs =>
          if c = byte ']' then skipInside fuel false frames cs
          else skipInside fuel true (.list :: frames) (c :: cs)
      else if b = byte '{' then
        match skipBlank bs with
        | [] => .error .endInObject
        | c :: cs =>
          if c = byte '}' then skipInside fuel false frames cs
          else
            match skipKey (c :: cs) with
            | .error fault => .error fault
            | .ok bs => skipInside fuel true (.object :: frames) bs
      else
        match skipScalar (b :: bs) with
        | .error fault => .error fault
        | .ok ((), bs) => skipInside fuel false frames bs

def skipValue : Scan Unit := fun bs =>
  (skipInside (2 * bs.length + 2) true [] bs).map fun bs => ((), bs)

end Clearing.Json.Read

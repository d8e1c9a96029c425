/-!
# Decimal integers in a bounded range

An integer is written as digits with an optional sign; the range it has to
fit in is given by its largest and smallest value. Characters are read from
the left and the first fault found decides: a character that is no digit, or
a value that has left the range.
-/

namespace Clearing.Text

inductive IntegerFault
  | empty
  | invalidDigit
  | tooLarge
  | tooSmall
deriving DecidableEq, Repr

def IntegerFault.message : IntegerFault → String
  | .empty => "cannot parse integer from empty string"
  | .invalidDigit => "invalid digit found in string"
  | .tooLarge => "number too large to fit in target type"
  | .tooSmall => "number too small to fit in target type"

def digitValue (c : Char) : Nat := c.toNat - 48

/-- Reads digits after the value `acc`; `outside` is the fault of a value
over `limit`. -/
def digits (limit : Nat) (outside : IntegerFault) : Nat → List Char → Except IntegerFault Nat
  | acc, [] => .ok acc
  | acc, c :: cs =>
    if c.isDigit then
      if limit < 10 * acc + digitValue c then .error outside
      else digits limit outside (10 * acc + digitValue c) cs
    else .error .invalidDigit

/-- A natural number up to `limit`, with an optional plus sign. -/
def natural? (limit : Nat) : List Char → Except IntegerFault Nat
  | [] => .error .empty
  | ['+'] => .error .invalidDigit
  | '+' :: cs => digits limit .tooLarge 0 cs
  | cs => digits limit .tooLarge 0 cs

/-- An integer between `-limit - 1` and `limit`, with an optional sign. -/
def integer? (limit : Nat) : List Char → Except IntegerFault Int
  | [] => .error .empty
  | ['+'] => .error .invalidDigit
  | ['-'] => .error .invalidDigit
  | '+' :: cs => (digits limit .tooLarge 0 cs).map Int.ofNat
  | '-' :: cs => (digits (limit + 1) .tooSmall 0 cs).map fun n => -(n : Int)
  | cs => (digits limit .tooLarge 0 cs).map Int.ofNat

end Clearing.Text

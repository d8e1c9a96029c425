/-!
# Bytes as hexadecimal text

A byte is written as two lower-case digits. Reading accepts either case and
nothing else: no odd number of digits and no other character.
-/

namespace Clearing.Text.Hex

def digit (n : Nat) : Char :=
  if n < 10 then Char.ofNat (48 + n) else Char.ofNat (87 + n)

def value? (c : Char) : Option Nat :=
  let n := c.toNat
  if 48 ≤ n ∧ n ≤ 57 then some (n - 48)
  else if 97 ≤ n ∧ n ≤ 102 then some (n - 87)
  else if 65 ≤ n ∧ n ≤ 70 then some (n - 55)
  else none

def encodeChars : List UInt8 → List Char
  | [] => []
  | b :: bs => digit (b.toNat / 16) :: digit (b.toNat % 16) :: encodeChars bs

def decodeChars? : List Char → Option (List UInt8)
  | [] => some []
  | [_] => none
  | a :: b :: cs => do
    let x ← value? a
    let y ← value? b
    let rest ← decodeChars? cs
    return UInt8.ofNat (16 * x + y) :: rest

def encode (bs : List UInt8) : String :=
  String.ofList (encodeChars bs)

def decode? (s : String) : Option (List UInt8) :=
  decodeChars? s.toList

theorem value?_digit : ∀ n < 16, value? (digit n) = some n := by
  decide

theorem decodeChars?_encodeChars (bs : List UInt8) : decodeChars? (encodeChars bs) = some bs := by
  induction bs with
  | nil => rfl
  | cons b bs ih =>
    have hb : b.toNat < 256 := b.toNat_lt
    simp only [encodeChars, decodeChars?, value?_digit _ (show b.toNat / 16 < 16 by omega),
      value?_digit _ (show b.toNat % 16 < 16 by omega), ih]
    have hv : 16 * (b.toNat / 16) + b.toNat % 16 = b.toNat := by omega
    have hu : UInt8.ofNat (16 * (b.toNat / 16) + b.toNat % 16) = b := by rw [hv]; simp
    exact congrArg (fun u => some (u :: bs)) hu

theorem encodeChars_length (bs : List UInt8) : (encodeChars bs).length = 2 * bs.length := by
  induction bs with
  | nil => rfl
  | cons b bs ih => simp [encodeChars, ih]; omega

end Clearing.Text.Hex

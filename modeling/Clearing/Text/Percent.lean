import Clearing.Text.Hex

/-!
# Percent escapes

A percent sign with two hexadecimal digits stands for a byte. A percent sign
with anything else behind it stands for itself.
-/

namespace Clearing.Text

def hexByte? (b : UInt8) : Option Nat := Hex.value? (Char.ofNat b.toNat)

def percentDecode : List UInt8 → List UInt8
  | [] => []
  | 0x25 :: a :: b :: rest =>
    match hexByte? a, hexByte? b with
    | some x, some y => UInt8.ofNat (16 * x + y) :: percentDecode rest
    | _, _ => 0x25 :: percentDecode (a :: b :: rest)
  | c :: rest => c :: percentDecode rest

end Clearing.Text

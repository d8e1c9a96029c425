import Clearing.Crypto.Sha256

/-!
# Base 58 with a checksum

Bytes are read as one big number and written with 58 digits and letters that
are hard to mistake for each other. Each zero byte in front is one `1`. With a
checksum, the last four bytes are the first four of a double digest of the
rest.
-/

namespace Clearing.Base58

def alphabet : List Char :=
  "123456789ABCDEFGHJKLMNPQRSTUVWXYZabcdefghijkmnopqrstuvwxyz".toList

def value? (c : Char) : Option Nat :=
  alphabet.findIdx? (· == c)

/-- The bytes of a number, most significant first, none for zero; `fuel`
bounds their count. -/
def numberBytes : Nat → Nat → List UInt8 → List UInt8
  | 0, _, acc => acc
  | fuel + 1, n, acc =>
    if n = 0 then acc else numberBytes fuel (n / 256) (UInt8.ofNat (n % 256) :: acc)

/-- The digits of a number in base 58, most significant first, none for zero;
`fuel` bounds their count. -/
def numberDigits : Nat → Nat → List Char → List Char
  | 0, _, acc => acc
  | fuel + 1, n, acc =>
    if n = 0 then acc else numberDigits fuel (n / 58) (alphabet.getD (n % 58) '1' :: acc)

/-- Writes bytes in base 58. A byte takes less than two digits. -/
def encode (bs : List UInt8) : List Char :=
  let n := bs.foldl (fun acc b => 256 * acc + b.toNat) 0
  List.replicate (bs.takeWhile (· == 0)).length '1' ++ numberDigits (2 * bs.length) n []

/-- Reads bytes in base 58. A digit takes less than one byte. -/
def decode? (cs : List Char) : Option (List UInt8) := do
  let values ← cs.mapM value?
  let n := values.foldl (fun acc v => 58 * acc + v) 0
  return List.replicate (cs.takeWhile (· == '1')).length 0 ++ numberBytes cs.length n []

def checksum (bs : List UInt8) : List UInt8 :=
  (Crypto.Sha256.digest (Crypto.Sha256.digest bs)).take 4

def encodeChecked (bs : List UInt8) : List Char :=
  encode (bs ++ checksum bs)

def decodeChecked? (cs : List Char) : Option (List UInt8) := do
  let bs ← decode? cs
  if bs.length < 4 then none
  else
    let body := bs.take (bs.length - 4)
    if bs.drop (bs.length - 4) = checksum body then some body else none

end Clearing.Base58

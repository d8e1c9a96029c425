/-!
# Bech32 text

A Bech32 text is a prefix, the letter `1`, and data in base 32 that ends with
six check digits. The same text may be written in upper or in lower case, but
not mixed. Two checksums are in use: one for witness version 0 and a later one
for the other versions.
-/

namespace Clearing.Bech32

def alphabet : List Char :=
  "qpzry9x8gf2tvdw0s3jn54khce6mua7l".toList

def value? (c : Char) : Option Nat :=
  alphabet.findIdx? (· == c.toLower)

inductive Checksum
  | first
  | second
deriving DecidableEq, Repr

def Checksum.target : Checksum → Nat
  | .first => 1
  | .second => 0x2bc830a3

def generators : List Nat :=
  [0x3b6a57b2, 0x26508e6d, 0x1ea119fa, 0x3d4233dd, 0x2a1462b3]

/-- The remainder of the digits as a polynomial over the field of 32
elements. -/
def polymod (values : List Nat) : Nat :=
  values.foldl (fun chk v =>
    let top := chk >>> 25
    let base := ((chk &&& 0x1ffffff) <<< 5) ^^^ v
    (generators.zipIdx).foldl (fun acc g => if (top >>> g.2) &&& 1 = 1 then acc ^^^ g.1 else acc)
      base) 1

/-- The prefix as digits: the high bits, a zero, the low bits. -/
def expandPrefix (hrp : List Char) : List Nat :=
  hrp.map (fun c => c.toNat >>> 5) ++ 0 :: hrp.map (fun c => c.toNat &&& 31)

def verify (kind : Checksum) (hrp : List Char) (data : List Nat) : Bool :=
  polymod (expandPrefix hrp ++ data) == kind.target

def checkDigits (kind : Checksum) (hrp : List Char) (data : List Nat) : List Nat :=
  let p := polymod (expandPrefix hrp ++ data ++ List.replicate 6 0) ^^^ kind.target
  (List.range 6).map fun i => (p >>> (5 * (5 - i))) &&& 31

def encode (kind : Checksum) (hrp : List Char) (data : List Nat) : List Char :=
  hrp ++ '1' :: (data ++ checkDigits kind hrp data).map (alphabet.getD · 'q')

/-- The prefix in lower case and the data digits: the text is cut at its last
`1`, all of it is in one case, the prefix has 1 to 83 visible characters and
what follows are digits. -/
def split? (cs : List Char) : Option (List Char × List Nat) := do
  let tail := (cs.reverse.takeWhile (· != '1')).reverse
  let front := cs.take (cs.length - tail.length)
  if front.isEmpty then none
  let hrp := front.dropLast
  let digits ← tail.mapM value?
  if cs.any Char.isUpper && cs.any Char.isLower then none
  if hrp.isEmpty || 83 < hrp.length then none
  if hrp.any fun c => c.toNat < 33 || 126 < c.toNat then none
  return (hrp.map Char.toLower, digits)

/-- Regroups five-bit digits to bytes; what is left over must be fewer than
five zero bits. -/
def toBytes? (data : List Nat) : Option (List UInt8) :=
  let rec go : List Nat → Nat → Nat → List UInt8 → Option (List UInt8)
    | [], acc, bits, out => if bits < 5 ∧ acc = 0 then some out.reverse else none
    | d :: ds, acc, bits, out =>
      let acc := 32 * acc + d
      let bits := bits + 5
      if 8 ≤ bits then
        go ds (acc % Nat.pow 2 (bits - 8)) (bits - 8)
          (UInt8.ofNat (acc / Nat.pow 2 (bits - 8)) :: out)
      else go ds acc bits out
  go data 0 0 []

def ofBytes (bs : List UInt8) : List Nat :=
  let n := bs.foldl (fun acc b => 256 * acc + b.toNat) 0
  let count := (8 * bs.length + 4) / 5
  let filled := n * Nat.pow 2 (5 * count - 8 * bs.length)
  (List.range count).map fun i => (filled / Nat.pow 32 (count - 1 - i)) % 32

end Clearing.Bech32

/-!
# The shortest decimal of a double

A finite double is a whole number times a power of two. Of all decimals that
lie closer to it than to any other double, the shortest is one with the fewest
digits, and of those the nearest. It is looked for on the grids of one, two
and more digits: if a grid has such a decimal, then one of the two grid points
beside the double is one.
-/

namespace Clearing.Decimal

/-- A positive double: `mantissa * 2 ^ exponent`. -/
structure Double where
  mantissa : Nat
  exponent : Int
deriving DecidableEq, Repr

def Double.ofFloat (x : Float) : Double :=
  let bits : Nat := x.toBits.toNat
  let field : Nat := bits / Nat.pow 2 52 % Nat.pow 2 11
  let low : Nat := bits % Nat.pow 2 52
  if field = 0 then ⟨low, -1074⟩ else ⟨Nat.pow 2 52 + low, (field : Int) - 1075⟩

/-- The decimal `digits * 10 ^ exponent`. -/
structure Digits where
  digits : Nat
  exponent : Int
deriving DecidableEq, Repr

/-- `a * 10 ^ k ≤ b * 2 ^ e`, computed in whole numbers. -/
def scaledLe (a : Nat) (k : Int) (b : Nat) (e : Int) : Bool :=
  a * Nat.pow 10 k.toNat * Nat.pow 2 (-e).toNat ≤
    b * Nat.pow 2 e.toNat * Nat.pow 10 (-k).toNat

/-- `a * 2 ^ e ≤ b * 10 ^ k`, computed in whole numbers. -/
def leScaled (a : Nat) (e : Int) (b : Nat) (k : Int) : Bool :=
  a * Nat.pow 2 e.toNat * Nat.pow 10 (-k).toNat ≤
    b * Nat.pow 10 k.toNat * Nat.pow 2 (-e).toNat

/-- The whole part of `a * 2 ^ e / 10 ^ k`. -/
def gridFloor (a : Nat) (e k : Int) : Nat :=
  a * Nat.pow 2 e.toNat * Nat.pow 10 (-k).toNat /
    (Nat.pow 10 k.toNat * Nat.pow 2 (-e).toNat)

/-- The exponent of the leading decimal digit, searched from `k` downwards. -/
def leading (x : Double) : Nat → Int → Int
  | 0, k => k
  | fuel + 1, k => if scaledLe 1 k x.mantissa x.exponent then k else leading x fuel (k - 1)

/-- Whether the grid point `d * 10 ^ k` rounds to the double: it lies between
the midpoints to its neighbours, ends included for an even mantissa. The
points are compared at a quarter of the double's unit. -/
def roundsTo (x : Double) (d : Nat) (k : Int) : Bool :=
  let e := x.exponent - 2
  let low := 4 * x.mantissa - (if x.mantissa = Nat.pow 2 52 ∧ -1074 < x.exponent then 1 else 2)
  let high := 4 * x.mantissa + 2
  if x.mantissa % 2 = 0 then leScaled low e d k && scaledLe d k high e
  else !scaledLe d k low e && !leScaled high e d k

/-- Whether `d + 1` is nearer to the double than `d`, on the grid `10 ^ k`. -/
def upperNearer (x : Double) (d : Nat) (k : Int) : Bool :=
  !leScaled (2 * x.mantissa) x.exponent (2 * d + 1) k

/-- The first grid with a decimal of the double, from the grid `10 ^ k` on
towards finer ones. -/
def search (x : Double) : Nat → Int → Digits
  | 0, k => ⟨gridFloor x.mantissa x.exponent k, k⟩
  | fuel + 1, k =>
    let d := gridFloor x.mantissa x.exponent k
    let lower := roundsTo x d k
    let upper := roundsTo x (d + 1) k
    if lower && upper then ⟨if upperNearer x d k then d + 1 else d, k⟩
    else if lower then ⟨d, k⟩
    else if upper then ⟨d + 1, k⟩
    else search x fuel (k - 1)

def Digits.strip : Nat → Digits → Digits
  | 0, r => r
  | fuel + 1, r =>
    if r.digits % 10 = 0 then strip fuel ⟨r.digits / 10, r.exponent + 1⟩ else r

/-- The shortest decimal of a positive double; seventeen digits always do. -/
def shortest (x : Double) : Digits :=
  (search x 17 (leading x 640 310)).strip 17

/-- A float in decimal: positional with a point up to sixteen digits before
it and down to four zeros behind it, else with an exponent. -/
def text (x : Float) : String :=
  let sign := if UInt64.size / 2 ≤ x.toBits.toNat then "-" else ""
  if x == 0 then sign ++ "0.0"
  else
    let r := shortest (.ofFloat x.abs)
    let ds := Nat.toDigits 10 r.digits
    let n := ds.length
    let point : Int := n + r.exponent
    let body : List Char :=
      if 0 ≤ r.exponent ∧ point ≤ 16 then
        ds ++ List.replicate r.exponent.toNat '0' ++ ['.', '0']
      else if 0 < point ∧ point ≤ 16 then
        ds.take point.toNat ++ '.' :: ds.drop point.toNat
      else if -5 < point ∧ point ≤ 0 then
        '0' :: '.' :: List.replicate (-point).toNat '0' ++ ds
      else
        ds.take 1 ++ (if n = 1 then [] else '.' :: ds.drop 1) ++
          'e' :: (toString (point - 1)).toList
    sign ++ String.ofList body

end Clearing.Decimal

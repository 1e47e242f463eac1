import Setters.Binary64

/-!
# Decimal text of floating-point numbers

A finite number is written with the fewest digits that read back as the same number, and of
those the ones nearest to it. `shortest` finds them in exact arithmetic: among the decimals of
one digit, then of two and so on, it tests the two neighbours of the number against the interval
of reals that round to it. `DecimalStyle` says which of two equally near decimals is taken, and
where the point and the exponent go.
-/

namespace Setters.Binary64

/-! ### Fewest digits -/

def decimalLength (n : Nat) : Nat :=
  (Nat.toDigits 10 n).length

/-- The greatest `e` with `10 ^ e ≤ num / den`, for positive `num` and `den`. -/
def floorLog10 (num den : Nat) : Int :=
  let e : Int := decimalLength num - decimalLength den
  if reaches 10 num den e then e else e - 1

/-- The reals that round to a number, with a common denominator; the ends belong to them exactly
when the mantissa is even. -/
structure Rounding where
  low : Nat
  value : Nat
  high : Nat
  den : Nat
  closed : Bool

/-- The reals that round to `mantissa * 2 ^ exponent`. Below a power of two the neighbour is half
as far away as above it. -/
def Rounding.of (mantissa : Nat) (exponent : Int) : Rounding :=
  let e := exponent - 2
  let unit := Nat.pow 2 e.toNat
  let near := mantissa = Nat.pow 2 52 ∧ minExponent < exponent
  { low := (4 * mantissa - (if near then 1 else 2)) * unit
    value := 4 * mantissa * unit
    high := (4 * mantissa + 2) * unit
    den := Nat.pow 2 (-e).toNat
    closed := mantissa % 2 = 0 }

/-- Whether `digits * 10 ^ k` rounds to the number. -/
def Rounding.contains (r : Rounding) (digits : Nat) (k : Int) : Bool :=
  let x := digits * Nat.pow 10 k.toNat * r.den
  let scale := Nat.pow 10 (-k).toNat
  if r.closed then r.low * scale ≤ x && x ≤ r.high * scale
  else r.low * scale < x && x < r.high * scale

inductive Tie where
  | even
  | up
deriving DecidableEq

def Tie.round (tie : Tie) (num den : Nat) : Nat :=
  match tie with
  | .even => roundDiv num den
  | .up => (2 * num + den) / (2 * den)

/-- The decimal with last place `10 ^ k` that rounds to the number and is nearest to it, if there
is one. -/
def Rounding.onGrid (r : Rounding) (tie : Tie) (k : Int) : Option Nat :=
  let num := r.value * Nat.pow 10 (-k).toNat
  let den := r.den * Nat.pow 10 k.toNat
  let below := num / den
  match r.contains below k, r.contains (below + 1) k with
  | true, true => some (tie.round num den)
  | true, false => some below
  | false, true => some (below + 1)
  | false, false => none

/-- `digits * 10 ^ k` without trailing zeros in the digits; `fuel` bounds their number. -/
def stripZeros : Nat → Nat → Int → Nat × Int
  | 0, digits, k => (digits, k)
  | fuel + 1, digits, k =>
    if digits % 10 = 0 then stripZeros fuel (digits / 10) (k + 1) else (digits, k)

/-- The fewest digits that read back as `mantissa * 2 ^ exponent`, and the power of ten of the
last one. The mantissa is positive; seventeen digits always suffice. -/
def shortest (tie : Tie) (mantissa : Nat) (exponent : Int) : Nat × Int :=
  let r := Rounding.of mantissa exponent
  let top := floorLog10 r.value r.den
  let found := (List.range 17).findSome? fun (n : Nat) =>
    (r.onGrid tie (top - n)).map fun digits => (digits, top - n)
  match found with
  | some (digits, k) => stripZeros 17 digits k
  | none => (0, 0)

/-! ### Layout -/

/-- How decimal text is laid out: which of two equally near decimals is taken, and which exponents
of the leading digit are written with the point in place; the others get an exponent with its
sign. -/
structure DecimalStyle where
  tie : Tie
  inPlace : Int → Bool

/-- Exponents from -5 to 15 are written in place; a tie goes to the even digit. -/
def DecimalStyle.scientific : DecimalStyle :=
  ⟨.even, fun e => -5 ≤ e && e ≤ 15⟩

/-- All exponents are written in place; a tie goes away from zero. -/
def DecimalStyle.positional : DecimalStyle :=
  ⟨.up, fun _ => true⟩

/-- The text of `digits * 10 ^ k`; a whole number ends in `.0`. -/
def decimalText (style : DecimalStyle) (digits : Nat) (k : Int) : String :=
  let ds := Nat.toDigits 10 digits
  let top : Int := ds.length + k - 1
  let zeros (n : Int) : List Char := List.replicate n.toNat '0'
  String.ofList <|
    if style.inPlace top then
      if 0 ≤ k then ds ++ zeros k ++ ['.', '0']
      else if 0 ≤ top then ds.take (top.toNat + 1) ++ '.' :: ds.drop (top.toNat + 1)
      else '0' :: '.' :: zeros (-top - 1) ++ ds
    else
      let fraction := if ds.length ≤ 1 then [] else '.' :: ds.drop 1
      let sign := if top < 0 then '-' else '+'
      ds.take 1 ++ fraction ++ 'e' :: sign :: Nat.toDigits 10 top.natAbs

def text (style : DecimalStyle) : Binary64 → String
  | .finite negative mantissa exponent =>
    let body :=
      if mantissa = 0 then "0.0"
      else
        let (digits, k) := shortest style.tie mantissa exponent
        decimalText style digits k
    if negative then "-" ++ body else body
  | .infinite negative => if negative then "-inf" else "inf"
  | .nan => "NaN"

end Setters.Binary64

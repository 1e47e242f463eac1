/-!
# Binary floating point

Numbers of 53 bits mantissa and 11 bits exponent, as exact dyadic rationals. Every operation
computes the exact result and rounds it once: `Binary64.ofRatio` gives the number nearest to a
quotient, a tie going to the even mantissa, and an infinity beyond the greatest finite number.
-/

namespace Setters

/-- A floating-point number. A finite one is `mantissa * 2 ^ exponent` with its sign, where the
mantissa is below `2 ^ 53`, and at least `2 ^ 52` unless the exponent is `-1074`. -/
inductive Binary64 where
  | finite (negative : Bool) (mantissa : Nat) (exponent : Int)
  | infinite (negative : Bool)
  | nan
deriving DecidableEq

namespace Binary64

/-- The integer nearest to `num / den`; of two equally near ones the even one. -/
def roundDiv (num den : Nat) : Nat :=
  let below := num / den
  let rest := num % den
  if 2 * rest < den then below
  else if den < 2 * rest then below + 1
  else if below % 2 = 0 then below
  else below + 1

/-- Whether `den * base ^ e ≤ num`. -/
def reaches (base : Nat) (num den : Nat) (e : Int) : Bool :=
  den * Nat.pow base e.toNat ≤ num * Nat.pow base (-e).toNat

/-- The greatest `e` with `2 ^ e ≤ num / den`, for positive `num` and `den`. -/
def floorLog2 (num den : Nat) : Int :=
  let e : Int := num.log2 - den.log2
  if reaches 2 num den e then e else e - 1

def minExponent : Int := -1074

def maxExponent : Int := 971

def zero (negative : Bool) : Binary64 :=
  .finite negative 0 minExponent

def ofRatio (negative : Bool) (num den : Nat) : Binary64 :=
  if num = 0 then zero negative else
  let q := max (floorLog2 num den - 52) minExponent
  let m := roundDiv (num * Nat.pow 2 (-q).toNat) (den * Nat.pow 2 q.toNat)
  let (m, q) := if m = Nat.pow 2 53 then (Nat.pow 2 52, q + 1) else (m, q)
  if maxExponent < q then .infinite negative else .finite negative m q

def ofNat (n : Nat) : Binary64 :=
  ofRatio false n 1

def tenPow (n : Nat) : Binary64 :=
  ofNat (Nat.pow 10 n)

/-- The product of two finite numbers, rounded; anything else gives no number. -/
def mul : Binary64 → Binary64 → Binary64
  | .finite s m q, .finite s' m' q' =>
    let e := q + q'
    ofRatio (s != s') (m * m' * Nat.pow 2 e.toNat) (Nat.pow 2 (-e).toNat)
  | _, _ => .nan

/-- The quotient of a finite number and a finite number other than zero, rounded; anything else
gives no number. -/
def div : Binary64 → Binary64 → Binary64
  | .finite s m q, .finite s' m' q' =>
    if m' = 0 then .nan else
    let e := q - q'
    ofRatio (s != s') (m * Nat.pow 2 e.toNat) (m' * Nat.pow 2 (-e).toNat)
  | _, _ => .nan

def neg : Binary64 → Binary64
  | .finite s m q => .finite (!s) m q
  | .infinite s => .infinite (!s)
  | .nan => .nan

def isZero : Binary64 → Bool
  | .finite _ m _ => m == 0
  | _ => false

def isInfinite : Binary64 → Bool
  | .infinite _ => true
  | _ => false

/-- The number nearest to `digits * 10 ^ exponent`, where `digits` has at most `length` decimal
digits. Far outside the range of finite numbers the power is not computed. -/
def ofDecimal (negative : Bool) (digits length : Nat) (exponent : Int) : Binary64 :=
  if digits = 0 then zero negative
  else if exponent > 400 then .infinite negative
  else if exponent + length < -400 then zero negative
  else ofRatio negative (digits * Nat.pow 10 exponent.toNat) (Nat.pow 10 (-exponent).toNat)

end Binary64

end Setters

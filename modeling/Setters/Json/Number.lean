import Setters.Json
import Setters.Json.Text

/-!
# JSON numbers

An integer literal that fits 64 bits, signed or unsigned, is an integer; every other number is
floating-point. The digits are gathered into a significand of 64 bits, further ones only count
towards the exponent, and the significand is then scaled by a power of ten, each step rounded.
-/

namespace Setters.Json

def digitValue (c : Char) : Nat :=
  c.toNat - '0'.toNat

def digitsValue (digits : List Char) : Nat :=
  digits.foldl (fun value c => value * 10 + digitValue c) 0

/-- Appends digits to a significand as long as it stays below `2 ^ 64`; gives the digits that are
left. -/
def gather (significand : Nat) : List Char → Nat × List Char
  | [] => (significand, [])
  | c :: cs =>
    let next := significand * 10 + digitValue c
    if next < Nat.pow 2 64 then gather next cs else (significand, c :: cs)

/-- Scales by `10 ^ exponent`, in steps of at most `10 ^ 308`; `none` when the result is too
great. Two such steps down make every significand zero, so a few steps, bounded by the first
argument, are enough. -/
def scale : Nat → Binary64 → Int → Option Binary64
  | 0, x, _ => some x
  | steps + 1, x, exponent =>
    if exponent.natAbs ≤ 308 then
      if 0 ≤ exponent then
        let y := x.mul (.tenPow exponent.natAbs)
        if y.isInfinite then none else some y
      else some (x.div (.tenPow exponent.natAbs))
    else if x.isZero then some x
    else if 0 ≤ exponent then none
    else scale steps (x.div (.tenPow 308)) (exponent + 308)

/-- The number of a sign, a significand and a decimal exponent. -/
def realOfParts (negative : Bool) (significand : Nat) (exponent : Int) :
    Except Malformed Number :=
  match scale 8 (.ofNat significand) exponent with
  | none => .error .numberOutOfRange
  | some x => .ok (.real (if negative then x.neg else x))

def spanDigits (cs : List Char) : List Char × List Char :=
  (cs.takeWhile Char.isDigit, cs.dropWhile Char.isDigit)

def isExponentMark (c : Char) : Bool :=
  c = 'e' || c = 'E'

/-- The sign of an exponent, positive when none is written. -/
def readSign : List Char → Bool × List Char
  | '+' :: rest => (true, rest)
  | '-' :: rest => (false, rest)
  | rest => (true, rest)

def noDigit (rest : List Char) : Flaw :=
  if rest.isEmpty then .atEnd .endInValue else .within .invalidNumber rest

/-- A number with the text behind it, which is where one that is out of range is noticed. -/
def withRest (rest : List Char) : Except Malformed Number → Except Flaw (Number × List Char)
  | .ok n => .ok (n, rest)
  | .error fault => .error (.before fault rest)

/-- The digits behind the one with which an exponent gets too great. -/
def behindLimit (exponent : Nat) : List Char → List Char
  | [] => []
  | c :: cs =>
    let next := exponent * 10 + digitValue c
    if next < Nat.pow 2 31 then behindLimit next cs else cs

def readExponent (negative : Bool) (significand : Nat) (start : Int) (cs : List Char) :
    Except Flaw (Number × List Char) :=
  let (positive, cs) := readSign cs
  let (digits, rest) := spanDigits cs
  if digits.isEmpty then .error (noDigit rest)
  else
    let exponent := digitsValue digits
    if Nat.pow 2 31 ≤ exponent then
      if significand ≠ 0 && positive then
        .error (.before .numberOutOfRange (behindLimit 0 digits ++ rest))
      else .ok (.real (.zero negative), rest)
    else
      let exponent : Int := if positive then start + exponent else start - exponent
      withRest rest (realOfParts negative significand exponent)

def readRealEnd (negative : Bool) (significand : Nat) (exponent : Int) (cs : List Char) :
    Except Flaw (Number × List Char) :=
  match cs with
  | c :: rest =>
    if isExponentMark c then readExponent negative significand exponent rest
    else withRest cs (realOfParts negative significand exponent)
  | [] => withRest cs (realOfParts negative significand exponent)

def readFraction (negative : Bool) (significand : Nat) (exponent : Int) (cs : List Char) :
    Except Flaw (Number × List Char) :=
  let (digits, rest) := spanDigits cs
  if digits.isEmpty then .error (noDigit rest)
  else
    let (significand, excess) := gather significand digits
    readRealEnd negative significand (exponent - (digits.length - excess.length : Nat)) rest

/-- The integer of a sign and a significand; zero with a minus sign, and what does not fit 64
bits, are floating-point. -/
def integerOfParts (negative : Bool) (significand : Nat) : Number :=
  if negative then
    if significand = 0 || Nat.pow 2 63 < significand then .real (Binary64.ofNat significand).neg
    else .integer (-significand)
  else .integer significand

/-- Reads what may follow an integer literal; `excess` digits of it are not in the significand. -/
def readIntegerEnd (negative : Bool) (significand excess : Nat) (cs : List Char) :
    Except Flaw (Number × List Char) :=
  match cs with
  | '.' :: rest => readFraction negative significand excess rest
  | _ =>
    if excess = 0 && !(cs.head?.any isExponentMark) then
      .ok (integerOfParts negative significand, cs)
    else readRealEnd negative significand excess cs

/-- Reads a number after its sign. A leading zero stands alone. -/
def readNumber (negative : Bool) (cs : List Char) : Except Flaw (Number × List Char) :=
  let (digits, rest) := spanDigits cs
  match digits with
  | [] => .error (noDigit rest)
  | '0' :: _ :: more => .error (.before .invalidNumber (more ++ rest))
  | _ =>
    let (significand, excess) := gather 0 digits
    readIntegerEnd negative significand excess.length rest

end Setters.Json

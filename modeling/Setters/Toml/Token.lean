import Setters.Toml.Item
import Setters.Toml.Scanner

/-!
# TOML tokens

Keys, strings, numbers, dates and times.
-/

namespace Setters.Toml

open Scanner

/-! ### Strings -/

def hexValue? (c : Char) : Option Nat :=
  if c.isDigit then some (c.toNat - '0'.toNat)
  else if 'a' ≤ c ∧ c ≤ 'f' then some (c.toNat - 'a'.toNat + 10)
  else if 'A' ≤ c ∧ c ≤ 'F' then some (c.toNat - 'A'.toNat + 10)
  else none

def isHexDigit (c : Char) : Bool :=
  (hexValue? c).isSome

def digitsValue (base : Nat) (digits : List Char) : Nat :=
  digits.foldl (fun value c => value * base + (hexValue? c).getD 0) 0

/-- The characters that stand for themselves between double quotes. -/
def isBasicChar (c : Char) : Bool :=
  isCommentChar c && c != '"' && c != '\\'

/-- The characters that stand for themselves between single quotes. -/
def isLiteralChar (c : Char) : Bool :=
  isCommentChar c && c != '\''

def hexEscape (count : Nat) (name : String) : Scanner Char :=
  label name <| commit <| check (takeExactly count isHexDigit) fun digits =>
    let value := digitsValue 16 digits
    if value.isValidChar then .ok (Char.ofNat value) else .error .outOfRange

def escapeLetters : List Char :=
  ['b', 'f', 'n', 'r', 't', 'u', 'U', '\\', '"']

def escape : Scanner Char := do
  let _ ← char '\\'
  match ← any with
  | 'b' => return '\x08'
  | 'f' => return '\x0c'
  | 'n' => return '\n'
  | 'r' => return '\r'
  | 't' => return '\t'
  | '\\' => return '\\'
  | '"' => return '"'
  | 'u' => hexEscape 4 "unicode 4-digit hex code"
  | 'U' => hexEscape 8 "unicode 8-digit hex code"
  | _ =>
    escapeLetters.foldl (fun scanner c => expecting (.char c) scanner)
      (label "escape sequence" (commit fail))

def basicString : Scanner (List Char) := do
  let _ ← char '"'
  let pieces ← many ((takeWhileOne isBasicChar).orElse do return [← escape])
  let _ ← label "basic string" (commit (char '"'))
  return pieces.flatten

def literalString : Scanner (List Char) :=
  label "literal string" do
    let _ ← char '\''
    let text ← takeWhile isLiteralChar
    let _ ← commit (char '\'')
    return text

def tripled (quote : Char) : Scanner Unit :=
  word [quote, quote, quote]

/-- Two quotes or one, in front of what the scanner reads, which is left alone. -/
def quotesBefore {α : Type} (quote : Char) (next : Scanner α) : Scanner (List Char) :=
  let quotes (taken : List Char) : Scanner (List Char) := do
    word taken
    let _ ← peek next
    return taken
  (quotes [quote, quote]).orElse (quotes [quote])

/-- The text of a string of several lines up to its closing quotes; one or two quotes may stand
inside it and at its end. -/
def multilineBody (quote : Char) (content : Scanner (List Char)) : Scanner (List Char) := do
  let start ← many content
  let rest ← many do
    let quotes ← quotesBefore quote content
    return quotes ++ (← manyOne content).flatten
  let last ← optional (quotesBefore quote (tripled quote))
  tripled quote
  return start.flatten ++ rest.flatten ++ last.getD []

/-- A backslash at the end of a line, and all blanks and line ends after it. -/
def escapedNewline : Scanner Unit := do
  let _ ← char '\\'
  blanks
  newline
  let _ ← many (newline.orElse do let _ ← takeWhileOne isBlank)

/-- A string between three double quotes. -/
def multilineBasicString : Scanner (List Char) := do
  tripled '"'
  let _ ← optional newline
  label "multiline basic string" <| commit <| multilineBody '"' <|
    (takeWhileOne isBasicChar).orElse <|
      orElse (do let _ ← manyOne escapedNewline; return []) <|
        orElse (do return [← escape]) do newline; return ['\n']

/-- A string between three single quotes. -/
def multilineLiteralString : Scanner (List Char) := do
  tripled '\''
  let _ ← optional newline
  label "multiline literal string" <| commit <| multilineBody '\'' <|
    (takeWhileOne isLiteralChar).orElse do newline; return ['\n']

def anyString : Scanner (List Char) :=
  multilineBasicString.orElse <| basicString.orElse <|
    multilineLiteralString.orElse literalString

/-! ### Keys -/

def isBareKeyChar (c : Char) : Bool :=
  c.isAlphanum || c == '-' || c == '_'

def simpleKey : Scanner Key := do
  let start ← offset
  let name ←
    match ← peek any with
    | '"' => basicString
    | '\'' => literalString
    | _ => takeWhileOne isBareKeyChar
  return ⟨String.ofList name, ⟨start, ← offset⟩⟩

/-- The number of keys in a dotted key, and of brackets in one another, stays below this. -/
def depthLimit : Nat :=
  80

def dottedKey : Scanner (List Key) :=
  let part : Scanner Key := do
    blanks
    let key ← simpleKey
    blanks
    return key
  check (label "key" (separatedOne part (char '.'))) fun keys =>
    if depthLimit ≤ keys.length then .error .tooDeep else .ok keys

/-! ### Numbers -/

/-- Digits with single underscores between them. -/
def groupedDigits (isDigit : Char → Bool) : Scanner (List Char) := do
  let first ← satisfy isDigit
  let rest ← many <| (satisfy isDigit).orElse do
    let _ ← char '_'
    expecting (.phrase "digit") (commit (satisfy isDigit))
  return first :: rest

def sign : Scanner (Option Char) :=
  optional (satisfy fun c => c == '+' || c == '-')

/-- A decimal integer: whether it is negative, and its digits. A leading zero stands alone. -/
def decimalInteger : Scanner (Bool × List Char) :=
  label "integer" do
    let sign ← sign
    let digits ←
      orElse
        (do let _ ← peek (satisfy fun c => c.isDigit && c != '0'); groupedDigits Char.isDigit)
        (do return [← satisfy Char.isDigit])
    return (sign == some '-', digits)

/-- The integer of a sign and a magnitude, when it fits 64 bits. -/
def integerOf (negative : Bool) (magnitude : Nat) : Except Cause Scalar :=
  if negative then
    if Nat.pow 2 63 < magnitude then .error .tooSmall else .ok (.integer (-magnitude))
  else if Nat.pow 2 63 ≤ magnitude then .error .tooLarge
  else .ok (.integer magnitude)

def basedInteger (mark : Char) (base : Nat) (name : String) (isDigit : Char → Bool) :
    Scanner Scalar :=
  let digits : Scanner (List Char) := do
    word ['0', mark]
    commit (groupedDigits isDigit)
  commit <| check (label name digits) fun digits => integerOf false (digitsValue base digits)

def integer : Scanner Scalar := fun input =>
  match input.chars with
  | '0' :: 'x' :: _ => basedInteger 'x' 16 "hexadecimal integer" isHexDigit input
  | '0' :: 'o' :: _ =>
    basedInteger 'o' 8 "octal integer" (fun c => '0' ≤ c && c ≤ '7') input
  | '0' :: 'b' :: _ =>
    basedInteger 'b' 2 "binary integer" (fun c => c == '0' || c == '1') input
  | _ =>
    check decimalInteger (fun (negative, digits) => integerOf negative (digitsValue 10 digits))
      input

def exponent : Scanner Int := do
  let _ ← satisfy fun c => c == 'e' || c == 'E'
  let sign ← sign
  let digits ← commit (groupedDigits Char.isDigit)
  return if sign == some '-' then -digitsValue 10 digits else digitsValue 10 digits

def fraction : Scanner (List Char) := do
  let _ ← char '.'
  expecting (.phrase "digit") (commit (groupedDigits Char.isDigit))

/-- A number with a fraction or an exponent; beyond the greatest finite number there is none. -/
def decimalReal : Scanner Binary64 :=
  let parts : Scanner (Bool × List Char × List Char × Int) := do
    let (negative, whole) ← decimalInteger
    orElse (do return (negative, whole, [], ← exponent)) do
      let digits ← fraction
      return (negative, whole, digits, (← optional exponent).getD 0)
  fun input =>
    match parts input with
    | .error failure => .error failure
    | .ok ((negative, whole, digits, e), rest) =>
      let all := whole ++ digits
      let value := Binary64.ofDecimal negative (digitsValue 10 all) all.length (e - digits.length)
      if value = .infinite false then .error { offset := input.offset, committed := true }
      else .ok (value, rest)

def infinity : Scanner Binary64 := do
  word ['i', 'n', 'f']
  return .infinite false

def notANumber : Scanner Binary64 := do
  word ['n', 'a', 'n']
  return .nan

def real : Scanner Scalar :=
  let special : Scanner Binary64 := do
    let sign ← sign
    let value ← infinity.orElse notANumber
    return if sign == some '-' then value.neg else value
  label "floating-point number" do return .real (← decimalReal.orElse special)

/-! ### Dates and times -/

def twoDigits (low high : Nat) : Scanner Nat :=
  check (takeExactly 2 Char.isDigit) fun digits =>
    let value := digitsValue 10 digits
    if low ≤ value && value ≤ high then .ok value else .error .outOfRange

/-- A number in decimal with two digits at least. -/
def padded (n : Nat) : List Char :=
  let digits := Nat.toDigits 10 n
  List.replicate (2 - digits.length) '0' ++ digits

def daysInMonth (year month : Nat) : Nat :=
  let isLeap := year % 4 == 0 && (year % 100 != 0 || year % 400 == 0)
  match month with
  | 2 => if isLeap then 29 else 28
  | 4 | 6 | 9 | 11 => 30
  | _ => 31

def date : Scanner (List Char) := do
  let year ← takeExactly 4 Char.isDigit
  let _ ← char '-'
  let month ← commit (twoDigits 1 12)
  let _ ← commit (char '-')
  let day ← commit <| check (twoDigits 1 31) fun day =>
    if daysInMonth (digitsValue 10 year) month < day then .error .outOfRange else .ok day
  return year ++ '-' :: padded month ++ '-' :: padded day

/-- A fraction of a second, as text: nine digits at most, and no zeros at the end. -/
def secondFraction : Scanner (List Char) := do
  let _ ← char '.'
  let digits ← takeWhileOne Char.isDigit
  let kept := ((digits.take 9).reverse.dropWhile (· == '0')).reverse
  return if kept.isEmpty then [] else '.' :: kept

def time : Scanner (List Char) := do
  let hour ← twoDigits 0 23
  let _ ← char ':'
  commit do
    let minute ← twoDigits 0 59
    let _ ← char ':'
    let second ← twoDigits 0 60
    let fraction ← optional secondFraction
    return padded hour ++ ':' :: padded minute ++ ':' :: padded second ++ fraction.getD []

/-- An offset from universal time, as text; no offset is written as a positive one. -/
def timeOffset : Scanner (List Char) :=
  label "time offset" <|
    orElse (do let _ ← satisfy (fun c => c == 'Z' || c == 'z'); return ['Z']) do
      let sign ← satisfy fun c => c == '+' || c == '-'
      let (hour, minute) ← commit do
        let hour ← twoDigits 0 23
        let _ ← char ':'
        return (hour, ← twoDigits 0 59)
      return (if hour + minute = 0 then '+' else sign) :: padded hour ++ ':' :: padded minute

def dateTime : Scanner Scalar :=
  let dated : Scanner (List Char) := do
    let day ← date
    let rest ← optional do
      let _ ← satisfy fun c => c == 'T' || c == 't' || c == ' '
      let time ← time
      return 'T' :: time ++ (← optional timeOffset).getD []
    return day ++ rest.getD []
  do return .dateTime (String.ofList (← (label "date-time" dated).orElse (label "time" time)))

end Setters.Toml

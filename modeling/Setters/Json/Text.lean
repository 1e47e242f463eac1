import Setters.Text.Pieces

/-!
# JSON string literals

A literal is written with a backslash before quotes and backslashes, the short escapes for the
controls that have one, and four hexadecimal digits for the other controls; everything else
stands for itself.

Reading goes through the characters one by one; `Stage` says where inside an escape the reader
stands. A character beyond the basic plane may be escaped as two halves, a leading one followed
at once by a trailing one.
-/

namespace Setters.Json

/-! ### Writing -/

def hexDigit (n : Nat) : Char :=
  Nat.digitChar n

/-- A character inside a literal. -/
def escapeChar (c : Char) : List Char :=
  if c = '"' then ['\\', '"']
  else if c = '\\' then ['\\', '\\']
  else if c = '\x08' then ['\\', 'b']
  else if c = '\x0c' then ['\\', 'f']
  else if c = '\n' then ['\\', 'n']
  else if c = '\r' then ['\\', 'r']
  else if c = '\t' then ['\\', 't']
  else if c.toNat < 0x20 then
    ['\\', 'u', '0', '0', hexDigit (c.toNat / 16), hexDigit (c.toNat % 16)]
  else [c]

def literal (text : String) : List Char :=
  '"' :: (text.toList.flatMap escapeChar ++ ['"'])

/-! ### Reading -/

inductive Malformed where
  | endInValue
  | endInList
  | endInObject
  | endInString
  | expectedColon
  | expectedListNext
  | expectedObjectNext
  | expectedWord
  | expectedValue
  | invalidEscape
  | invalidNumber
  | numberOutOfRange
  | controlCharacter
  | keyNotString
  | loneSurrogate
  | unfinishedSurrogate
  | trailingComma
  | trailingCharacters
  | tooDeep
deriving DecidableEq

def Malformed.isTruncation : Malformed → Bool
  | .endInValue | .endInList | .endInObject | .endInString => true
  | _ => false

def Malformed.message : Malformed → String
  | .endInValue => "EOF while parsing a value"
  | .endInList => "EOF while parsing a list"
  | .endInObject => "EOF while parsing an object"
  | .endInString => "EOF while parsing a string"
  | .expectedColon => "expected `:`"
  | .expectedListNext => "expected `,` or `]`"
  | .expectedObjectNext => "expected `,` or `\x7d`"
  | .expectedWord => "expected ident"
  | .expectedValue => "expected value"
  | .invalidEscape => "invalid escape"
  | .invalidNumber => "invalid number"
  | .numberOutOfRange => "number out of range"
  | .controlCharacter =>
    "control character (\\u0000-\\u001F) found while parsing a string"
  | .keyNotString => "key must be a string"
  | .loneSurrogate => "lone leading surrogate in hex escape"
  | .unfinishedSurrogate => "unexpected end of hex escape"
  | .trailingComma => "trailing comma"
  | .trailingCharacters => "trailing characters"
  | .tooDeep => "recursion limit exceeded"

/-- A fault in the form of a document where it was noticed: so many bytes are left behind it. -/
structure Flaw where
  fault : Malformed
  left : Nat
deriving DecidableEq

namespace Flaw

/-- A fault that is noticed in front of what is left. -/
def before (fault : Malformed) (rest : List Char) : Flaw :=
  ⟨fault, Text.byteCount rest⟩

/-- A fault that is noticed in the first byte of what is left, or at the end of the text. -/
def within (fault : Malformed) (rest : List Char) : Flaw :=
  ⟨fault, Text.byteCount rest - 1⟩

def atEnd (fault : Malformed) : Flaw :=
  ⟨fault, 0⟩

end Flaw

def hexValue? (c : Char) : Option Nat :=
  if c.isDigit then some (c.toNat - '0'.toNat)
  else if 'a' ≤ c ∧ c ≤ 'f' then some (c.toNat - 'a'.toNat + 10)
  else if 'A' ≤ c ∧ c ≤ 'F' then some (c.toNat - 'A'.toNat + 10)
  else none

def shortEscape? : Char → Option Char
  | '"' => some '"'
  | '\\' => some '\\'
  | '/' => some '/'
  | 'b' => some '\x08'
  | 'f' => some '\x0c'
  | 'n' => some '\n'
  | 'r' => some '\r'
  | 't' => some '\t'
  | _ => none

def isLeading (unit : Nat) : Bool :=
  0xD800 ≤ unit && unit ≤ 0xDBFF

def isTrailing (unit : Nat) : Bool :=
  0xDC00 ≤ unit && unit ≤ 0xDFFF

def pairedChar (leading trailing : Nat) : Char :=
  Char.ofNat ((leading - 0xD800) * 0x400 + (trailing - 0xDC00) + 0x10000)

/-- Where a reader stands inside a literal. -/
inductive Stage where
  /-- Between characters. -/
  | plain
  /-- Behind a backslash. -/
  | escape
  /-- Inside the digits of a code unit: how many are to come, the value of those read, and the
  leading half before it. -/
  | unit (left value : Nat) (leading : Option Nat)
  /-- Behind a leading half, where a backslash has to follow. -/
  | half (leading : Nat)
  /-- Behind a leading half and a backslash. -/
  | halfEscape (leading : Nat)
deriving DecidableEq

/-- Reads the characters of a literal up to its closing quote, and gives the text after it. -/
def readLiteral : Stage → List Char → Except Flaw (List Char × List Char)
  | _, [] => .error (.atEnd .endInString)
  | .plain, c :: rest =>
    if c = '"' then .ok ([], rest)
    else if c = '\\' then readLiteral .escape rest
    else if c.toNat < 0x20 then .error (.before .controlCharacter rest)
    else (readLiteral .plain rest).map fun (text, rest) => (c :: text, rest)
  | .escape, c :: rest =>
    match shortEscape? c with
    | some d => (readLiteral .plain rest).map fun (text, rest) => (d :: text, rest)
    | none =>
      if c = 'u' then readLiteral (.unit 4 0 none) rest
      else .error (.within .invalidEscape (c :: rest))
  | .unit left value leading, c :: rest =>
    match hexValue? c with
    | none =>
      -- four bytes are taken before the digits are looked at, be they whole characters or not
      let bytes := Text.byteCount (c :: rest)
      if bytes < left then .error (.atEnd .endInString)
      else .error ⟨.invalidEscape, bytes - left⟩
    | some digit =>
      let value := value * 16 + digit
      if 1 < left then readLiteral (.unit (left - 1) value leading) rest
      else
        match leading with
        | none =>
          if isTrailing value then .error (.before .loneSurrogate rest)
          else if isLeading value then readLiteral (.half value) rest
          else (readLiteral .plain rest).map fun (text, rest) => (Char.ofNat value :: text, rest)
        | some leading =>
          if isTrailing value then
            (readLiteral .plain rest).map fun (text, rest) =>
              (pairedChar leading value :: text, rest)
          else .error (.before .loneSurrogate rest)
  | .half leading, c :: rest =>
    if c = '\\' then readLiteral (.halfEscape leading) rest
    else .error (.within .unfinishedSurrogate (c :: rest))
  | .halfEscape leading, c :: rest =>
    if c = 'u' then readLiteral (.unit 4 0 (some leading)) rest
    else .error (.within .unfinishedSurrogate (c :: rest))

def readText (cs : List Char) : Except Flaw (String × List Char) :=
  (readLiteral .plain cs).map fun (text, rest) => (String.ofList text, rest)

end Setters.Json

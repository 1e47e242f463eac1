import Setters.ContentFault
import Setters.Json.Number

/-!
# Reading JSON

A document is read in one pass from left to right, and the first fault met is reported: a wrong
type in an early member wins over a fault in the form of what comes later. So a reader for a
type of its own does not build a value first. This module holds the steps such readers are made
of, and the reader for plain values.

Brackets may nest 127 deep. A reader takes the number of levels that are left, and loops over
members and items are bounded by the number of characters that are left.

A fault comes with the line and column behind the last byte that was looked at. A fault in the
content that is met between tokens has no place at first: it gets the one that is reached when the
object or array around it has been closed, as far as its end follows.
-/

namespace Setters.Json

/-! ### Faults -/

/-- A place in a text: lines count from one, and columns count the bytes before it in its line. -/
structure Place where
  line : Nat
  column : Nat
deriving DecidableEq

/-- The place that many bytes further on. -/
def Place.advance (place : Place) : Nat → List Char → Place
  | _, [] => place
  | bytes, c :: cs =>
    if bytes = 0 then place
    else if c = '\n' then advance ⟨place.line + 1, 0⟩ (bytes - 1) cs
    else advance ⟨place.line, place.column + min bytes c.utf8Size⟩ (bytes - c.utf8Size) cs

/-- The place in a text behind which so many bytes are left. -/
def Place.of (text : List Char) (left : Nat) : Place :=
  advance ⟨1, 0⟩ (Text.byteCount text - left) text

/-- Why a JSON document is refused, and where. A fault in its content may have no place. -/
inductive Fault where
  | malformed (fault : Malformed) (place : Place)
  | content (fault : ContentFault) (place : Option Place := none)
deriving DecidableEq

/-- The kinds of faults: the form is wrong, the text ends too early, the content is wrong. -/
inductive Category where
  | form
  | truncation
  | content
deriving DecidableEq

def Malformed.category (fault : Malformed) : Category :=
  if fault.isTruncation then .truncation else .form

def Fault.category : Fault → Category
  | .malformed fault _ => fault.category
  | .content _ _ => .content

def Fault.message : Fault → String
  | .malformed fault _ => fault.message
  | .content fault _ => fault.message .scientific

def Fault.place? : Fault → Option Place
  | .malformed _ place => some place
  | .content _ place => place

def Place.text (place : Place) : String :=
  " at line " ++ toString place.line ++ " column " ++ toString place.column

def Fault.report (fault : Fault) : String :=
  fault.message ++ (fault.place?.map Place.text).getD ""

/-- Why a reader stops, and how many bytes are left behind the place where it does. -/
inductive Halt where
  | malformed (flaw : Flaw)
  | content (fault : ContentFault) (left : Nat)
  /-- What was met between tokens, and the text from there on. -/
  | pending (fault : ContentFault) (rest : List Char)
deriving DecidableEq

def Halt.category : Halt → Category
  | .malformed flaw => flaw.fault.category
  | .content _ _ | .pending _ _ => .content

def Halt.fault (text : List Char) : Halt → Fault
  | .malformed flaw => .malformed flaw.fault (.of text flaw.left)
  | .content fault left => .content fault (some (.of text left))
  | .pending fault _ => .content fault none

/-- Reads a value off the front of a text and gives the text after it. -/
abbrev Reader (α : Type) : Type :=
  List Char → Except Halt (α × List Char)

def malformed {α : Type} (flaw : Flaw) : Except Halt α :=
  .error (.malformed flaw)

/-- Refuses the content of the text in front of what is left. -/
def refuse {α : Type} (fault : ContentFault) (rest : List Char) : Except Halt α :=
  .error (.content fault (Text.byteCount rest))

/-- A step that looks at the form alone, as a step of a reader. -/
def ofForm {α : Type} : Except Flaw α → Except Halt α
  | .ok a => .ok a
  | .error flaw => malformed flaw

/-- A step that looks at the content alone, as a step of a reader that has come to a text. -/
def ofContent {α : Type} (rest : List Char) : Except ContentFault α → Except Halt (α × List Char)
  | .ok a => .ok (a, rest)
  | .error fault => .error (.pending fault rest)

/-- Gives a fault that has no place the one that is reached in the text behind it. -/
def settle {α : Type} (reach : List Char → List Char) : Except Halt α → Except Halt α
  | .error (.pending fault rest) => refuse fault (reach rest)
  | outcome => outcome

/-! ### Blanks and scalars -/

def isBlank (c : Char) : Bool :=
  c = ' ' || c = '\n' || c = '\t' || c = '\r'

def skipBlanks (cs : List Char) : List Char :=
  cs.dropWhile isBlank

def readWord {α : Type} (value : α) : List Char → List Char → Except Flaw (α × List Char)
  | [], rest => .ok (value, rest)
  | _ :: _, [] => .error (.atEnd .endInValue)
  | c :: word, d :: rest =>
    if c = d then readWord value word rest else .error (.within .expectedWord (d :: rest))

def readScalar : List Char → Except Flaw (Json × List Char)
  | [] => .error (.atEnd .endInValue)
  | 'n' :: rest => readWord .null ['u', 'l', 'l'] rest
  | 't' :: rest => readWord (.boolean true) ['r', 'u', 'e'] rest
  | 'f' :: rest => readWord (.boolean false) ['a', 'l', 's', 'e'] rest
  | '"' :: rest => (readText rest).map fun (text, rest) => (.string text, rest)
  | '-' :: rest => (readNumber true rest).map fun (n, rest) => (.number n, rest)
  | c :: rest =>
    if c.isDigit then (readNumber false (c :: rest)).map fun (n, rest) => (.number n, rest)
    else .error (.within .expectedValue (c :: rest))

def found : Json → Found
  | .null => .null
  | .boolean value => .boolean value
  | .number (.integer value) => .integer value
  | .number (.real value) => .real value
  | .string value => .string value
  | .array _ => .sequence
  | .object _ => .map

/-- Refuses what stands at the front of a text without blanks. A scalar is read to its end
first, so a fault in its form wins. -/
def mismatch {α : Type} (wanted : Wanted) : List Char → Except Halt α
  | '[' :: rest => refuse (.wrongType .sequence wanted) ('[' :: rest)
  | '\x7b' :: rest => refuse (.wrongType .map wanted) ('\x7b' :: rest)
  | cs =>
    match readScalar cs with
    | .error flaw => malformed flaw
    | .ok (value, rest) => refuse (.wrongType (found value) wanted) rest

def readString (wanted : Wanted) : Reader String := fun cs =>
  match skipBlanks cs with
  | '"' :: rest => ofForm (readText rest)
  | rest => mismatch wanted rest

def readOption {α : Type} (reader : Reader α) : Reader (Option α) := fun cs =>
  match skipBlanks cs with
  | 'n' :: rest => ofForm (readWord none ['u', 'l', 'l'] rest)
  | rest => (reader rest).map fun (value, rest) => (some value, rest)

/-! ### Objects and arrays -/

def readColon (cs : List Char) : Except Halt (List Char) :=
  match skipBlanks cs with
  | ':' :: rest => .ok rest
  | [] => malformed (.atEnd .endInObject)
  | c :: rest => malformed (.within .expectedColon (c :: rest))

/-- Reads up to the next key of an object: the key, or none at the closing brace. -/
def nextKey (first : Bool) (cs : List Char) : Except Halt (Option String × List Char) :=
  match skipBlanks cs with
  | [] => malformed (.atEnd .endInObject)
  | '\x7d' :: rest => .ok (none, rest)
  | c :: rest =>
    if first then
      if c = '"' then (ofForm (readText rest)).map fun (key, rest) => (some key, rest)
      else malformed (.within .keyNotString (c :: rest))
    else if c = ',' then
      match skipBlanks rest with
      | [] => malformed (.atEnd .endInValue)
      | '\x7d' :: rest => malformed (.within .trailingComma ('\x7d' :: rest))
      | '"' :: rest => (ofForm (readText rest)).map fun (key, rest) => (some key, rest)
      | c :: rest => malformed (.within .keyNotString (c :: rest))
    else malformed (.within .expectedObjectNext (c :: rest))

/-- Reads up to the next item of an array: whether there is one; none at the closing bracket,
which is read as well. -/
def nextItem (first : Bool) (cs : List Char) : Except Halt (Bool × List Char) :=
  match skipBlanks cs with
  | [] => malformed (.atEnd .endInList)
  | ']' :: rest => .ok (false, rest)
  | c :: rest =>
    if first then .ok (true, c :: rest)
    else if c = ',' then
      match skipBlanks rest with
      | [] => malformed (.atEnd .endInValue)
      | ']' :: rest => malformed (.within .trailingComma (']' :: rest))
      | rest => .ok (true, rest)
    else malformed (.within .expectedListNext (c :: rest))

/-- Reads members until the object closes. For each key `step` changes what was gathered so far
and reads the colon and the value; the first argument bounds the number of members. -/
def readMembers {σ : Type} (step : σ → String → Reader σ) : Nat → Bool → σ → Reader σ
  | 0, _, _, cs => malformed (.before .endInObject cs)
  | fuel + 1, first, state, cs =>
    match nextKey first cs with
    | .error halt => .error halt
    | .ok (none, rest) => .ok (state, rest)
    | .ok (some key, rest) =>
      match step state key rest with
      | .error halt => .error halt
      | .ok (state, rest) => readMembers step fuel false state rest

def readObject {σ : Type} (step : σ → String → Reader σ) (start : σ) : Reader σ := fun cs =>
  readMembers step (cs.length + 1) true start cs

/-- Reads items until the array closes; the first argument bounds their number. -/
def readItems {σ : Type} (step : σ → Reader σ) : Nat → Bool → σ → Reader σ
  | 0, _, _, cs => malformed (.before .endInList cs)
  | fuel + 1, first, state, cs =>
    match nextItem first cs with
    | .error halt => .error halt
    | .ok (false, rest) => .ok (state, rest)
    | .ok (true, rest) =>
      match step state rest with
      | .error halt => .error halt
      | .ok (state, rest) => readItems step fuel false state rest

def readArray {σ : Type} (step : σ → Reader σ) (start : σ) : Reader σ := fun cs =>
  readItems step (cs.length + 1) true start cs

/-- Reads the closing bracket of an array that has all its items. -/
def closeRow {σ : Type} (state : σ) : Reader σ := fun cs =>
  match skipBlanks cs with
  | [] => malformed (.atEnd .endInList)
  | ']' :: rest => .ok (state, rest)
  | ',' :: rest =>
    match skipBlanks rest with
    | ']' :: rest => malformed (.within .trailingComma (']' :: rest))
    | rest => malformed (.within .trailingCharacters rest)
  | c :: rest => malformed (.within .trailingCharacters (c :: rest))

/-- Reads the entries of a record written as an array, after its opening bracket: one item for
each of the keys, in their order. `short` says what becomes of an array that closes after the
given number of items. -/
def readRow {σ κ : Type} (step : σ → κ → Reader σ) (short : Nat → σ → Except ContentFault σ) :
    List κ → Nat → σ → Reader σ
  | [], _, state, cs => closeRow state cs
  | key :: keys, count, state, cs =>
    match nextItem (count == 0) cs with
    | .error halt => .error halt
    | .ok (false, rest) => settle id (ofContent rest (short count state))
    | .ok (true, rest) =>
      match step state key rest with
      | .error halt => .error halt
      | .ok (state, rest) => readRow step short keys (count + 1) state rest

/-- How far a reader gets that gives an object up: over its brace, if that follows. -/
def closeObject (cs : List Char) : List Char :=
  match skipBlanks cs with
  | '\x7d' :: rest => rest
  | rest => rest

/-- How far a reader gets that gives an array up: over its bracket or a comma. -/
def closeArray (cs : List Char) : List Char :=
  match skipBlanks cs with
  | ']' :: rest => rest
  | ',' :: rest => skipBlanks rest
  | rest => rest

/-! ### Values -/

/-- The number of brackets that may be open at a time. -/
def maxDepth : Nat :=
  127

/-- Reads a value whose brackets nest at most `room` deep. -/
def readValue : Nat → Reader Json
  | room, cs =>
    match skipBlanks cs with
    | '[' :: rest =>
      match room with
      | 0 => malformed (.before .tooDeep rest)
      | room + 1 =>
        (readArray
          (fun items cs => (readValue room cs).map fun (item, cs) => (item :: items, cs))
          [] rest).map fun (items, rest) => (.array items.reverse, rest)
    | '\x7b' :: rest =>
      match room with
      | 0 => malformed (.before .tooDeep rest)
      | room + 1 =>
        (readObject
          (fun members key cs =>
            match readColon cs with
            | .error halt => .error halt
            | .ok cs => (readValue room cs).map fun (value, cs) => ((key, value) :: members, cs))
          [] rest).map fun (members, rest) => (.object members.reverse, rest)
    | rest => ofForm (readScalar rest)

/-- Reads a whole document: after the value there may be nothing but blanks. -/
def readDocument {α : Type} (reader : Nat → Reader α) (text : String) : Except Fault α :=
  match reader maxDepth text.toList with
  | .error halt => .error (halt.fault text.toList)
  | .ok (value, rest) =>
    if (skipBlanks rest).isEmpty then .ok value
    else
      .error ((Halt.malformed (.within .trailingCharacters (skipBlanks rest))).fault text.toList)

def parse (text : String) : Except Fault Json :=
  readDocument readValue text

end Setters.Json

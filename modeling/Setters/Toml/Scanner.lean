import Setters.Text.Pieces
import Setters.Toml.Failure

/-!
# Scanning TOML texts

A scanner reads something off the front of a text. It either succeeds, or fails with or without
commitment: an uncommitted failure lets the caller go back and try something else, a committed
one ends the scan. The module holds the ways to put scanners together, and the blanks, comments
and line ends of the format.
-/

namespace Setters.Toml

/-- The text that is left, and the number of bytes before it. -/
structure Input where
  offset : Nat
  chars : List Char

/-- Reads something off the front of a text. -/
abbrev Scanner (α : Type) : Type :=
  Input → Except Failure (α × Input)

namespace Scanner

variable {α β : Type}

def pure (a : α) : Scanner α := fun input =>
  .ok (a, input)

/-- Fails without commitment. -/
def fail : Scanner α := fun input =>
  .error { offset := input.offset }

def bind (first : Scanner α) (next : α → Scanner β) : Scanner β := fun input =>
  match first input with
  | .error failure => .error failure
  | .ok (a, input) => next a input

instance : Monad Scanner where
  pure := pure
  bind := bind

/-- A failure of the scanner is committed. -/
def commit (scanner : Scanner α) : Scanner α := fun input =>
  match scanner input with
  | .error failure => .error { failure with committed := true }
  | .ok result => .ok result

/-- A failure of the scanner says what was being read, unless it says so already. -/
def label (name : String) (scanner : Scanner α) : Scanner α := fun input =>
  match scanner input with
  | .error failure => .error { failure with label := failure.label <|> some name }
  | .ok result => .ok result

/-- A failure of the scanner says what could have followed. -/
def expecting (expectation : Expectation) (scanner : Scanner α) : Scanner α := fun input =>
  match scanner input with
  | .error failure =>
    .error { failure with expected := failure.expected ++ [expectation] }
  | .ok result => .ok result

/-- A further check; where it finds a cause to fail, the failure is at the start of what was
read. -/
def check (scanner : Scanner α) (test : α → Except Cause β) : Scanner β := fun input =>
  match scanner input with
  | .error failure => .error failure
  | .ok (a, rest) =>
    match test a with
    | .ok b => .ok (b, rest)
    | .error cause => .error { offset := input.offset, cause := some cause }

/-- The first scanner, or the second one where the first fails without commitment. -/
def orElse (first second : Scanner α) : Scanner α := fun input =>
  match first input with
  | .ok result => .ok result
  | .error failure =>
    if failure.committed then .error failure
    else
      match second input with
      | .ok result => .ok result
      | .error failure =>
        .error (if failure.committed then failure else { failure with offset := input.offset })

/-- What the scanner reads, or nothing where it fails without commitment. -/
def optional (scanner : Scanner α) : Scanner (Option α) := fun input =>
  match scanner input with
  | .ok (a, rest) => .ok (some a, rest)
  | .error failure => if failure.committed then .error failure else .ok (none, input)

def peek (scanner : Scanner α) : Scanner α := fun input =>
  match scanner input with
  | .ok (a, _) => .ok (a, input)
  | .error failure => .error failure

/-- Reads as often as the scanner goes on; the first argument bounds the number of times. -/
def manyUpTo (scanner : Scanner α) : Nat → Scanner (List α)
  | 0, input => .ok ([], input)
  | fuel + 1, input =>
    match scanner input with
    | .error failure => if failure.committed then .error failure else .ok ([], input)
    | .ok (a, input) =>
      match manyUpTo scanner fuel input with
      | .error failure => .error failure
      | .ok (as, input) => .ok (a :: as, input)

def many (scanner : Scanner α) : Scanner (List α) := fun input =>
  manyUpTo scanner (input.chars.length + 1) input

def manyOne (scanner : Scanner α) : Scanner (List α) := do
  let first ← scanner
  return first :: (← many scanner)

/-- Reads at least one item, with a separator between two; a separator that no item follows is
left alone. -/
def separatedOne (item : Scanner α) (separator : Scanner β) : Scanner (List α) := do
  let first ← item
  return first :: (← many (do let _ ← separator; item))

def separated (item : Scanner α) (separator : Scanner β) : Scanner (List α) := do
  return (← optional (separatedOne item separator)).getD []

/-! ### Characters -/

def any : Scanner Char := fun input =>
  match input.chars with
  | [] => .error { offset := input.offset }
  | c :: rest => .ok (c, ⟨input.offset + c.utf8Size, rest⟩)

def satisfy (test : Char → Bool) : Scanner Char := fun input =>
  match input.chars with
  | [] => .error { offset := input.offset }
  | c :: rest =>
    if test c then .ok (c, ⟨input.offset + c.utf8Size, rest⟩)
    else .error { offset := input.offset }

def char (c : Char) : Scanner Char :=
  satisfy (· == c)

def word (chars : List Char) : Scanner Unit := fun input =>
  if chars.isPrefixOf input.chars then
    .ok ((), ⟨input.offset + Text.byteCount chars, input.chars.drop chars.length⟩)
  else .error { offset := input.offset }

def takeWhile (test : Char → Bool) : Scanner (List Char) := fun input =>
  let taken := input.chars.takeWhile test
  .ok (taken, ⟨input.offset + Text.byteCount taken, input.chars.dropWhile test⟩)

def takeWhileOne (test : Char → Bool) : Scanner (List Char) := do
  let first ← satisfy test
  return first :: (← takeWhile test)

/-- Exactly `count` characters that pass a test, of a run that may go on. -/
def takeExactly (count : Nat) (test : Char → Bool) : Scanner (List Char) := fun input =>
  let taken := (input.chars.take count).takeWhile test
  if taken.length = count then
    .ok (taken, ⟨input.offset + Text.byteCount taken, input.chars.drop count⟩)
  else .error { offset := input.offset }

def atEnd : Scanner Unit := fun input =>
  if input.chars.isEmpty then .ok ((), input) else .error { offset := input.offset }

def offset : Scanner Nat := fun input =>
  .ok (input.offset, input)

end Scanner

open Scanner

/-! ### Blanks and lines -/

/-- Space and tab. -/
def isBlank (c : Char) : Bool :=
  c == ' ' || c == '\t'

/-- The characters of a comment: all but controls, tabs excepted. -/
def isCommentChar (c : Char) : Bool :=
  c == '\t' || (' ' ≤ c && c != '\x7f')

def blanks : Scanner Unit := do
  let _ ← takeWhile isBlank

def newline : Scanner Unit := do
  match ← any with
  | '\n' => return ()
  | '\r' => let _ ← char '\n'
  | _ => fail

def comment : Scanner Unit := do
  let _ ← char '#'
  let _ ← takeWhile isCommentChar

def lineEnd : Scanner Unit :=
  newline.orElse atEnd

def lineRest : Scanner Unit := do
  blanks
  let _ ← optional comment
  lineEnd

/-- Blanks, line ends and whole comments, as they may stand inside an array. -/
def spacing : Scanner Unit := do
  blanks
  let _ ← many do
    match ← peek any with
    | '#' => commit comment; commit newline
    | '\n' | '\r' => commit newline
    | _ => fail
    blanks

end Setters.Toml

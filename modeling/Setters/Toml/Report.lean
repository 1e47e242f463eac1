import Setters.Schema.TomlReader
import Setters.Text.Pieces

/-!
# Reports on TOML texts

Why a TOML text is refused, with the line where that was noticed and a row of carets below it.
Lines and columns count from one in the report and from zero here; a column counts characters,
and the end of a text is one column behind its last character.
-/

namespace Setters.Toml

/-- A place in a text. -/
structure Place where
  line : Nat
  column : Nat
deriving DecidableEq

/-- The characters before a byte of a text, and the ones from there on. -/
def cutAt : Nat → List Char → List Char × List Char
  | _, [] => ([], [])
  | offset, c :: cs =>
    if offset = 0 then ([], c :: cs)
    else
      let (before, after) := cutAt (offset - c.utf8Size) cs
      (c :: before, after)

def placeOf (offset : Nat) (text : List Char) : Place :=
  match cutAt offset text with
  | (before, _ :: _) => place before 0
  | (before, []) => if before.isEmpty then place [] 0 else place before.dropLast 1
where
  place (before : List Char) (beyond : Nat) : Place :=
    ⟨before.count '\n', (before.reverse.takeWhile (· != '\n')).length + beyond⟩

def spaces (n : Nat) : String :=
  String.ofList (List.replicate n ' ')

/-- The lines that show a part of a text: its place, its line and carets below the part, as far
as it stands in that line; one caret at least. -/
def excerpt (source : String) (span : Span) : String :=
  let place := placeOf span.start source.toList
  let number := toString (place.line + 1)
  let content := String.ofList ((Text.pieces '\n' source.toList)[place.line]?.getD [])
  let carets := max 1 (min (span.stop - span.start) (content.utf8ByteSize - place.column))
  let margin := spaces (number.length + 1) ++ "|"
  "TOML parse error at line " ++ number ++ ", column " ++ toString (place.column + 1) ++ "\n" ++
    margin ++ "\n" ++ number ++ " | " ++ content ++ "\n" ++
    margin ++ spaces (place.column + 1) ++ String.ofList (List.replicate carets '^') ++ "\n"

def Fault.message : Fault → String
  | .malformed failure => failure.message
  | .content refusal => refusal.fault.message .positional

def Fault.span? (source : String) : Fault → Option Span
  | .malformed failure =>
    let width := if failure.offset = source.utf8ByteSize then 0 else 1
    some ⟨failure.offset, failure.offset + width⟩
  | .content refusal => refusal.span

/-- The report on a fault in a text: the excerpt, if there is a place, and the message. -/
def Fault.report (source : String) (fault : Fault) : String :=
  ((fault.span? source).map (excerpt source)).getD "" ++ fault.message ++ "\n"

end Setters.Toml

import Setters.Text.Pieces

/-!
# Target paths

A target path says where a parameter lands in the object being built. It is written as one or
more identifiers joined by dots, such as `spec.template.spec`: the last identifier is the key
that is set, the ones before it name the objects around that key, outermost first.

`TargetPath.parse` reads the written form and blames the leftmost faulty piece (section 10.3 of
the specification); `TargetPath.text` writes it.
-/

namespace Setters

/-! ### Identifiers -/

def isIdentifierStart (c : Char) : Bool :=
  c.isAlpha || c == '_'

def isIdentifierRest (c : Char) : Bool :=
  c.isAlphanum || c == '_'

/-- Whether the characters spell `[A-Za-z_][A-Za-z0-9_]*`. -/
def isIdentifier : List Char → Bool
  | [] => false
  | c :: cs => isIdentifierStart c && cs.all isIdentifierRest

/-- A key of a target path. -/
structure Identifier where
  name : String
  valid : isIdentifier name.toList = true
deriving DecidableEq

/-! ### Paths -/

/-- A key together with the keys of the objects around it, outermost first. -/
structure TargetPath where
  parents : List Identifier
  leaf : Identifier
deriving DecidableEq

inductive PathFault where
  | empty
  | emptySegment (path : String) (position : Nat)
  | invalidSegment (path segment : String)
deriving DecidableEq

def PathFault.message : PathFault → String
  | .empty => "target path is empty"
  | .emptySegment path position =>
    "target path `" ++ path ++ "` has an empty segment at position " ++ toString position
  | .invalidSegment path segment =>
    "target path `" ++ path ++ "` has invalid segment `" ++ segment ++ "`"

/-- Reads each piece as an identifier; the first that is none is reported, by its position
counted from `position` when it is empty. -/
def readSegments (path : String) (position : Nat) :
    List (List Char) → Except PathFault (List Identifier)
  | [] => .ok []
  | piece :: rest =>
    if piece.isEmpty then
      .error (.emptySegment path position)
    else if valid : isIdentifier piece = true then
      match readSegments path (position + 1) rest with
      | .error fault => .error fault
      | .ok segments => .ok (⟨String.ofList piece, by simpa using valid⟩ :: segments)
    else
      .error (.invalidSegment path (String.ofList piece))

namespace TargetPath

/-- The path with the given segments, the first one apart from the others. -/
def ofSegments : Identifier → List Identifier → TargetPath
  | s, [] => ⟨[], s⟩
  | s, t :: ts => let inner := ofSegments t ts; ⟨s :: inner.parents, inner.leaf⟩

def parse (text : String) : Except PathFault TargetPath :=
  if text.isEmpty then
    .error .empty
  else
    match readSegments text 0 (Text.pieces '.' text.toList) with
    | .error fault => .error fault
    | .ok [] => .error .empty
    | .ok (s :: ss) => .ok (ofSegments s ss)

/-- All keys of the path, outermost first. -/
def segments (path : TargetPath) : List Identifier :=
  path.parents ++ [path.leaf]

def depth (path : TargetPath) : Nat :=
  path.segments.length

def join (segments : List Identifier) : String :=
  ".".intercalate (segments.map Identifier.name)

def text (path : TargetPath) : String :=
  join path.segments

/-- The path without its leaf, and the leaf: `a.b.c` gives `a.b` and `c`, a lone key no path. -/
def splitLeaf (path : TargetPath) : Option TargetPath × Identifier :=
  match path.parents with
  | [] => (none, path.leaf)
  | s :: ss => (some (ofSegments s ss), path.leaf)

end TargetPath

end Setters

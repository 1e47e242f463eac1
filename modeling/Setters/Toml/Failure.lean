/-!
# Failures in TOML texts

Where a text stops being TOML, the scanner gives up with a failure: what it was reading, what it
could have gone on with, and perhaps a cause of another kind, such as a key that is there twice.
A failure that is not committed lets the scanner try something else at the same place.
-/

namespace Setters.Toml

/-- What a text could have gone on with. -/
inductive Expectation where
  | char (c : Char)
  | text (t : String)
  | phrase (p : String)
deriving DecidableEq

/-- A reason to fail that does not lie in the next character. -/
inductive Cause where
  /-- A key is defined twice; the keys of the table it stands in, where they are told. -/
  | duplicateKey (key : String) (table : Option (List String))
  /-- A dotted key leads through something that is no table. -/
  | notTable (path : List String) (found : String)
  /-- A number inside a date, a time or an escape is too great. -/
  | outOfRange
  /-- Brackets or dotted keys nest too deep. -/
  | tooDeep
  /-- An integer is above the range of 64 bits. -/
  | tooLarge
  /-- An integer is below the range of 64 bits. -/
  | tooSmall
deriving DecidableEq

/-- Why a text is not TOML, and the byte at which that was noticed. -/
structure Failure where
  offset : Nat
  committed : Bool := false
  label : Option String := none
  expected : List Expectation := []
  cause : Option Cause := none
deriving DecidableEq

def Expectation.message : Expectation → String
  | .char '\n' => "newline"
  | .char c => String.ofList ['`', c, '`']
  | .text t => "`" ++ t ++ "`"
  | .phrase p => p

def Cause.message : Cause → String
  | .duplicateKey key none => "duplicate key `" ++ key ++ "`"
  | .duplicateKey key (some []) => "duplicate key `" ++ key ++ "` in document root"
  | .duplicateKey key (some table) =>
    "duplicate key `" ++ key ++ "` in table `" ++ ".".intercalate table ++ "`"
  | .notTable path found =>
    "dotted key `" ++ ".".intercalate path ++ "` attempted to extend non-table type (" ++
      found ++ ")"
  | .outOfRange => "value is out of range"
  | .tooDeep => "recursion limit exceeded"
  | .tooLarge => "number too large to fit in target type"
  | .tooSmall => "number too small to fit in target type"

/-- The text of a failure: a line each for what was read, what was expected and the cause. -/
def Failure.message (failure : Failure) : String :=
  let label := failure.label.map fun label => "invalid " ++ label
  let expected :=
    if failure.expected.isEmpty then none
    else some ("expected " ++ ", ".intercalate (failure.expected.map Expectation.message))
  "\n".intercalate ([label, expected, failure.cause.map Cause.message].filterMap id)

end Setters.Toml

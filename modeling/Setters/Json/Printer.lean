import Setters.Binary64.Text
import Setters.Json.Text
import Setters.Json

/-!
# Writing JSON

The compact text of a value has no blanks outside string literals. The pretty text puts every
member and item on a line of its own, indented by two spaces a level; empty objects and arrays
stay on one line.
-/

namespace Setters.Json

def Number.chars : Number → List Char
  | .integer value => (toString value).toList
  | .real value => (value.text .scientific).toList

mutual

def compactChars : Json → List Char
  | .null => ['n', 'u', 'l', 'l']
  | .boolean true => ['t', 'r', 'u', 'e']
  | .boolean false => ['f', 'a', 'l', 's', 'e']
  | .number n => n.chars
  | .string text => literal text
  | .array items => '[' :: (compactItems items ++ [']'])
  | .object members => '\x7b' :: (compactMembers members ++ ['\x7d'])

def compactItems : List Json → List Char
  | [] => []
  | [item] => compactChars item
  | item :: items => compactChars item ++ ',' :: compactItems items

def compactMembers : List (String × Json) → List Char
  | [] => []
  | [(key, value)] => literal key ++ ':' :: compactChars value
  | (key, value) :: members =>
    literal key ++ ':' :: (compactChars value ++ ',' :: compactMembers members)

end

def newLine (level : Nat) : List Char :=
  '\n' :: List.replicate (2 * level) ' '

mutual

/-- The pretty text of a value that begins at a level. -/
def prettyChars (level : Nat) : Json → List Char
  | .array [] => ['[', ']']
  | .array items => '[' :: (prettyItems (level + 1) items ++ newLine level ++ [']'])
  | .object [] => ['\x7b', '\x7d']
  | .object members =>
    '\x7b' :: (prettyMembers (level + 1) members ++ newLine level ++ ['\x7d'])
  | .null => ['n', 'u', 'l', 'l']
  | .boolean true => ['t', 'r', 'u', 'e']
  | .boolean false => ['f', 'a', 'l', 's', 'e']
  | .number n => n.chars
  | .string text => literal text

def prettyItems (level : Nat) : List Json → List Char
  | [] => []
  | [item] => newLine level ++ prettyChars level item
  | item :: items => newLine level ++ prettyChars level item ++ ',' :: prettyItems level items

def prettyMembers (level : Nat) : List (String × Json) → List Char
  | [] => []
  | [(key, value)] => newLine level ++ literal key ++ ':' :: ' ' :: prettyChars level value
  | (key, value) :: members =>
    newLine level ++ literal key ++ ':' :: ' ' :: (prettyChars level value ++
      ',' :: prettyMembers level members)

end

def compact (value : Json) : String :=
  String.ofList (compactChars value)

def pretty (value : Json) : String :=
  String.ofList (prettyChars 0 value)

end Setters.Json

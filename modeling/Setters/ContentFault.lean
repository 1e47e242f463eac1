import Setters.Binary64.Text
import Setters.TargetPath
import Setters.Text.Quoted

/-!
# Content faults

Why the content of a well-formed document is not what a reader wants of it. The same faults
arise from JSON and from TOML documents; their texts differ in the layout of decimals only.
-/

namespace Setters

/-- What stands in a document. -/
inductive Found where
  | null
  | boolean (value : Bool)
  | integer (value : Int)
  | real (value : Binary64)
  | string (value : String)
  | sequence
  | map
deriving DecidableEq

/-- What a reader wants to find. -/
inductive Wanted where
  | string
  | map
  | sequence
  | unit
  | variant
  | stringOrMap
  | schema
  | modifier
  | field
  | expr
deriving DecidableEq

/-- A record that may be written as an array of its entries. -/
structure Row where
  title : String
  entries : Nat
deriving DecidableEq

/-- Why the content of a document is refused. -/
inductive ContentFault where
  /-- Something else stands where `wanted` should. -/
  | wrongType (found : Found) (wanted : Wanted)
  /-- A record has no entry of this key. -/
  | unknownKey (key : String) (known : List String)
  /-- A record has two entries of one key. -/
  | repeatedKey (key : String)
  /-- A record lacks an entry. -/
  | missingKey (key : String)
  /-- A word is none of the known ones. -/
  | unknownVariant (word : String) (known : List String)
  /-- A number stands for a variant that does not exist. -/
  | variantIndex (index count : Nat)
  /-- A table that stands for a variant has several keys, or none. -/
  | notSingleKey
  /-- An array that stands for a record is too short. -/
  | shortRow (length : Nat) (row : Row)
  /-- An array that stands for a record is too long. -/
  | longRow (length entries : Nat)
  /-- A text is no target path. -/
  | path (fault : PathFault)
  /-- A field has parts of a modifier but no target. -/
  | missingTarget
  /-- A field has a target and also parts of a group. -/
  | mixedModifier (target : TargetPath)
  /-- A modifier has no parameter. -/
  | missingParameter (target : TargetPath)
  /-- A modifier has no type. -/
  | missingType (target : TargetPath)
  /-- A variant is neither a word nor a table. -/
  | notWordOrTable
  /-- A table that stands for a variant has no key, or more than one. -/
  | notOneElement (several : Bool)
  /-- The value beside a variant is a table or an array, and not empty. -/
  | tableNotEmpty
  /-- The value beside a variant is an array of tables that have headers of their own. -/
  | tablesNotEmpty
  /-- The value beside a variant is neither a table nor an array. -/
  | notTable (found : String)
deriving DecidableEq

def Found.text (style : Binary64.DecimalStyle) : Found → String
  | .null => "null"
  | .boolean value => "boolean `" ++ (if value then "true" else "false") ++ "`"
  | .integer value => "integer `" ++ toString value ++ "`"
  | .real value => "floating point `" ++ value.text style ++ "`"
  | .string value => "string " ++ Text.quoted value
  | .sequence => "sequence"
  | .map => "map"

def Wanted.text : Wanted → String
  | .string => "a string"
  | .map => "a map"
  | .sequence => "a sequence"
  | .unit => "unit"
  | .variant => "variant identifier"
  | .stringOrMap => "string or map"
  | .schema => "struct SchemaObject"
  | .modifier => "struct Modifier"
  | .field => "struct RawNode"
  | .expr => "internally tagged enum Node"

def elementCount (n : Nat) : String :=
  if n = 1 then "1 element" else toString n ++ " elements"

def choiceText (known : List String) : String :=
  match known.map fun word => "`" ++ word ++ "`" with
  | [a] => a
  | [a, b] => a ++ " or " ++ b
  | all => "one of " ++ ", ".intercalate all

def ContentFault.message (style : Binary64.DecimalStyle) : ContentFault → String
  | .wrongType found wanted =>
    "invalid type: " ++ found.text style ++ ", expected " ++ wanted.text
  | .unknownKey key known => "unknown field `" ++ key ++ "`, expected " ++ choiceText known
  | .repeatedKey key => "duplicate field `" ++ key ++ "`"
  | .missingKey key => "missing field `" ++ key ++ "`"
  | .unknownVariant word known =>
    "unknown variant `" ++ word ++ "`, expected " ++ choiceText known
  | .variantIndex index count =>
    "invalid value: integer `" ++ toString index ++ "`, expected variant index 0 <= i < " ++
      toString count
  | .notSingleKey => "invalid value: map, expected map with a single key"
  | .shortRow length row =>
    "invalid length " ++ toString length ++ ", expected " ++ row.title ++ " with " ++
      elementCount row.entries
  | .longRow length entries =>
    "invalid length " ++ toString length ++ ", expected " ++ elementCount entries ++
      " in sequence"
  | .path fault => fault.message
  | .missingTarget => "modifier is missing `target`"
  | .mixedModifier target =>
    "modifier targeting `" ++ target.text ++ "` cannot have `fields` or `help`"
  | .missingParameter target =>
    "modifier targeting `" ++ target.text ++ "` is missing `parameter`"
  | .missingType target => "modifier targeting `" ++ target.text ++ "` is missing `type`"
  | .notWordOrTable => "wanted string or table"
  | .notOneElement several =>
    "wanted exactly 1 element, " ++
      if several then "more than 1 element" else "found 0 elements"
  | .tableNotEmpty => "expected empty table"
  | .tablesNotEmpty => "expected empty array"
  | .notTable found => "expected table, found " ++ found

end Setters

import Setters.Json
import Setters.Schema

/-!
# Schemas as JSON values

A modifier is an object of its three parts, a group an object of its help, when it has one, and
its fields. Fields stand in their order in the schema.
-/

namespace Setters

def Modifier.toJson (modifier : Modifier) : Json :=
  .object
    [("parameter", .string modifier.parameter),
     ("type", .string modifier.kind.word),
     ("target", .string modifier.target.text)]

/-- A group as a JSON value, given its fields in that form. -/
def groupJson (help : Option String) (fields : List (String × Json)) : Json :=
  .object <|
    match help with
    | some help => [("help", .string help), ("fields", .object fields)]
    | none => [("fields", .object fields)]

namespace Field

mutual

def toJson : Field → Json
  | .modifier m => m.toJson
  | .group help fields => groupJson help (toJsonAll fields)

def toJsonAll : List (String × Field) → List (String × Json)
  | [] => []
  | (name, field) :: rest => (name, toJson field) :: toJsonAll rest

end

end Field

def Schema.toJson (schema : Schema) : Json :=
  groupJson schema.help (Field.toJsonAll schema.fields.toList)

end Setters

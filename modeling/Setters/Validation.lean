import Setters.Expansion

/-!
# Validation

What has to hold of a schema beyond the shape of its parts: field names and parameter names are
not empty, and no two fields of one group give rise to a declaration of the same name.

`Schema.validate` walks each group in ascending order of field names and reports the first fault
(section 10.4 of the specification). A place in the schema is written as a dotted path of field
names that starts at `root`; a field without a name is reported at the place of its group.
-/

namespace Setters

inductive ValidationFault where
  | emptyFieldName (location : String)
  | emptyParameter (location : String)
  | duplicateDeclaration (location name first second : String)
deriving DecidableEq

def ValidationFault.message : ValidationFault → String
  | .emptyFieldName location => "empty field name in `" ++ location ++ "`"
  | .emptyParameter location => "modifier `" ++ location ++ "` has an empty parameter name"
  | .duplicateDeclaration location name first second =>
    "declaration `" ++ name ++ "` in `" ++ location ++ "` is generated by both `" ++ first ++
      "` and `" ++ second ++ "`"

def fieldLocation (location name : String) : String :=
  location ++ "." ++ name

namespace Field

/-- The names of the declarations that a field of the given name gives rise to. -/
def declarationNames (name : String) : Field → List String
  | .modifier m => name :: if m.kind.isMergeable then [name ++ mixinSuffix] else []
  | .group .. => [name]

/-- Notes that the field `owner` declares `names`, beside what is declared already; each entry
of `declared` is a name and the field it comes from. -/
def declare (location owner : String) (declared : List (String × String)) :
    List String → Except ValidationFault (List (String × String))
  | [] => .ok declared
  | name :: names =>
    match declared.lookup name with
    | some first => .error (.duplicateDeclaration location name first owner)
    | none => declare location owner ((name, owner) :: declared) names

mutual

def validate (location : String) : Field → Except ValidationFault Unit
  | .modifier m => if m.parameter.isEmpty then .error (.emptyParameter location) else .ok ()
  | .group _ fields => validateAll location [] fields

/-- Checks the fields of the group at `location`, given what earlier ones declare
(`validate_object`). -/
def validateAll (location : String) (declared : List (String × String)) :
    List (String × Field) → Except ValidationFault Unit
  | [] => .ok ()
  | (name, field) :: rest =>
    if name.isEmpty then
      .error (.emptyFieldName location)
    else
      match declare location name declared (field.declarationNames name) with
      | .error fault => .error fault
      | .ok declared =>
        match validate (fieldLocation location name) field with
        | .error fault => .error fault
        | .ok () => validateAll location declared rest

end

end Field

/-- Reports the first fault of the schema (`validate`). -/
def Schema.validate (schema : Schema) : Except ValidationFault Unit :=
  Field.validateAll "root" [] schema.fields.toList

end Setters

import Setters.Validation

/-!
# Compilation

A modifier becomes its functions; a group becomes an object literal that holds the declarations
of its fields in ascending order of name. A lone declaration that is not a function makes the
literal concise, and a help text that is not empty becomes a comment around it (sections 4.1
and 10.5 of the specification).
-/

namespace Setters

/-- The literal `name` of some declarations, by the collapsing rule of section 4.1. -/
def Expr.literal (name : String) : List Expr → Expr
  | [only] => if only.isFunc then .object name [only] else .concise name only
  | children => .object name children

def Expr.documented (node : Expr) : Option String → Expr
  | some help => if help.isEmpty then node else .comment node help
  | none => node

/-- The declaration of a group whose fields give the listed declarations. -/
def Expr.ofGroup (name : String) (help : Option String) (declarations : List Expr) : Expr :=
  (literal name (sortByName declarations)).documented help

namespace Field

mutual

/-- The declarations of a field (`compile`): the functions of a modifier, one literal for a
group. -/
def compile (name : String) : Field → List Expr
  | .modifier m => m.functions name
  | .group help fields => [.ofGroup name help (compileAll fields)]

def compileAll : List (String × Field) → List Expr
  | [] => []
  | (name, field) :: rest => compile name field ++ compileAll rest

end

end Field

namespace Schema

/-- The declaration of a schema that need not be valid (`compile_object`). -/
def declaration (name : String) (schema : Schema) : Expr :=
  .ofGroup name schema.help (Field.compileAll schema.fields.toList)

/-- The declaration of a valid schema, or the first fault (`compile_schema`). -/
def compile (name : String) (schema : Schema) : Except ValidationFault Expr :=
  match schema.validate with
  | .error fault => .error fault
  | .ok () => .ok (schema.declaration name)

end Schema

end Setters

import Setters.Expr
import Setters.Schema

/-!
# Functions of a modifier

A modifier becomes a setter, and when its values can be merged also a mixin. The body of either
is the target path written as nested object literals of one key each, with the parameter at the
leaf.

A marker says that a value is merged into the one that is there. Every literal is marked, so
that setting a deep key leaves its neighbours alone; the reference at the leaf is marked in a
mixin only. Section 4.4 of the specification lets each step mark the literal it has made; the
markers are put around the values of those literals here, as in the trees of section 8.
-/

namespace Setters

/-- Appended to the name of a field to name its mixin. -/
def mixinSuffix : String :=
  "Mixin"

namespace Modifier

/-- The target path as nested literals around a reference to the parameter, built from the leaf
outward (`expand`). The value of the innermost parent is marked when `merge` is set, the values
of all parents further out always; the whole is marked when there is a parent or `merge` is
set. -/
def expand (modifier : Modifier) (merge : Bool) : Expr :=
  let leaf := Expr.ref modifier.target.leaf.name modifier.parameter
  let parents := modifier.target.parents
  let tree := parents.reverse.zipIdx.foldl
    (fun inner (segment, level) =>
      .concise segment.name (if level > 0 || merge then .merge inner else inner))
    leaf
  if !parents.isEmpty || merge then .merge tree else tree

/-- The function `name`: it takes the parameter and returns the expanded path. -/
def function (name : String) (modifier : Modifier) (merge : Bool) : Expr :=
  .func name (.args [.required (.string modifier.parameter "")])
    (.concise "" (modifier.expand merge))

/-- The setter of the field `name`, followed by its mixin when the kind is mergeable (`generate`,
section 4.2). -/
def functions (name : String) (modifier : Modifier) : List Expr :=
  modifier.function name false ::
    if modifier.kind.isMergeable then [modifier.function (name ++ mixinSuffix) true] else []

end Modifier

end Setters

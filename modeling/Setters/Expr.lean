/-!
# Expression trees

The declarations made from a schema: functions and nested object literals, as a tree that holds
no source text (section 10.2 of the specification). A renderer decides how each node is printed.

The module holds the tree, what can be asked of a node, and the order by declared name.
`Expr.sortByName` is stable and compares names by code points, which is also the order of their
UTF-8 bytes.
-/

namespace Setters

inductive Expr where
  /-- An object literal of any number of keys, bound to `name`. -/
  | object (name : String) (children : List Expr)
  /-- An object literal of one key, bound to `name`, printed in shorthand. -/
  | concise (name : String) (child : Expr)
  /-- A function; its parameters are expected to be an `args` node. -/
  | func (name : String) (params body : Expr)
  /-- A key whose value is the parameter `target`. -/
  | ref (key target : String)
  /-- Merges the node into the value that is there instead of replacing it. -/
  | merge (inner : Expr)
  /-- The parameter list of a function. -/
  | args (params : List Expr)
  /-- Marks a parameter that has to be given. -/
  | required (param : Expr)
  /-- A parameter that holds text. -/
  | string (name default : String)
  /-- A node with documentation. -/
  | comment (node : Expr) (text : String)
deriving Inhabited

namespace Expr

/-! ### Equality -/

mutual

def same : Expr → Expr → Bool
  | .object n cs, .object n' cs' => n == n' && sameAll cs cs'
  | .concise n c, .concise n' c' => n == n' && same c c'
  | .func n p b, .func n' p' b' => n == n' && same p p' && same b b'
  | .ref k t, .ref k' t' => k == k' && t == t'
  | .merge e, .merge e' => same e e'
  | .args ps, .args ps' => sameAll ps ps'
  | .required p, .required p' => same p p'
  | .string n d, .string n' d' => n == n' && d == d'
  | .comment e t, .comment e' t' => same e e' && t == t'
  | _, _ => false

def sameAll : List Expr → List Expr → Bool
  | [], [] => true
  | e :: es, e' :: es' => same e e' && sameAll es es'
  | _, _ => false

end

mutual

theorem same_iff : (a b : Expr) → (same a b = true ↔ a = b)
  | .object n cs, b => by cases b <;> simp [same, sameAll_iff cs]
  | .concise n c, b => by cases b <;> simp [same, same_iff c]
  | .func n p q, b => by cases b <;> simp [same, same_iff p, same_iff q, and_assoc]
  | .ref k t, b => by cases b <;> simp [same]
  | .merge e, b => by cases b <;> simp [same, same_iff e]
  | .args ps, b => by cases b <;> simp [same, sameAll_iff ps]
  | .required p, b => by cases b <;> simp [same, same_iff p]
  | .string n d, b => by cases b <;> simp [same]
  | .comment e t, b => by cases b <;> simp [same, same_iff e]

theorem sameAll_iff : (as bs : List Expr) → (sameAll as bs = true ↔ as = bs)
  | [], bs => by cases bs <;> simp [sameAll]
  | e :: es, bs => by cases bs <;> simp [sameAll, same_iff e, sameAll_iff es]

end

instance : DecidableEq Expr := fun a b => decidable_of_iff _ (same_iff a b)

/-! ### Questions to a node -/

/-- The key a node is declared under: a wrapper has the name of what it wraps, a parameter list
has none. -/
def name : Expr → String
  | .object name _ | .concise name _ | .func name _ _ | .string name _ => name
  | .ref key _ => key
  | .merge inner => inner.name
  | .required param => param.name
  | .comment node _ => node.name
  | .args _ => ""

/-- Whether the node is a function with no wrapper around it. -/
def isFunc : Expr → Bool
  | .func .. => true
  | _ => false

def isMerge : Expr → Bool
  | .merge _ => true
  | _ => false

def isConcise : Expr → Bool
  | .concise .. => true
  | _ => false

def commentText? : Expr → Option String
  | .comment _ text => some text
  | _ => none

/-- The node without its comment, one level deep. -/
def uncommented : Expr → Expr
  | .comment node _ => node
  | other => other

def merged? : Expr → Option Expr
  | .merge inner => some inner
  | _ => none

def children? : Expr → Option (List Expr)
  | .object _ children => some children
  | .concise _ child => some [child]
  | _ => none

def body? : Expr → Option Expr
  | .func _ _ body => some body
  | _ => none

def params? : Expr → Option (List Expr)
  | .func _ (.args params) _ => some params
  | _ => none

mutual

def size : Expr → Nat
  | .object _ children => 1 + sizeAll children
  | .concise _ child => 1 + child.size
  | .func _ params body => 1 + (params.size + body.size)
  | .ref .. => 1
  | .merge inner => 1 + inner.size
  | .args params => 1 + sizeAll params
  | .required param => 1 + param.size
  | .string .. => 1
  | .comment node _ => 1 + node.size

def sizeAll : List Expr → Nat
  | [] => 0
  | e :: es => e.size + sizeAll es

end

/-! ### Order by name -/

/-- Sorts by declared name, ascending; nodes of one name keep their order (`sort_fields`, section
4.3). Names are compared in whole, so `aB` stands between `a` and `aMixin`. -/
def sortByName (nodes : List Expr) : List Expr :=
  nodes.mergeSort fun a b => decide (a.name ≤ b.name)

end Expr

end Setters

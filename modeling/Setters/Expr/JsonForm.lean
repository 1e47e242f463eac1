import Setters.Expr
import Setters.Json.Reader

/-!
# Expression trees as JSON values

A node is an object with its kind under the key `kind`, followed by the parts of that kind
(section 10.2 of the specification). In reading, the kind may stand anywhere among the members
and members of other keys are passed over; a node may also be an array of its kind and its parts.

`ExprKind.slots` says what the parts of each kind are, so one rule reads the nodes of all kinds.
-/

namespace Setters

/-! ### Kinds and their parts -/

inductive ExprKind where
  | object
  | concise
  | func
  | ref
  | merge
  | args
  | required
  | string
  | comment
deriving DecidableEq

/-- What a part of a node holds. -/
inductive Slot where
  | text
  | node
  | nodes
deriving DecidableEq

inductive Part where
  | text (text : String)
  | node (node : Expr)
  | nodes (nodes : List Expr)
deriving DecidableEq

namespace ExprKind

/-- All kinds, in the order in which messages list them and numbers stand for them. -/
def all : List ExprKind :=
  [.object, .concise, .func, .ref, .merge, .args, .required, .string, .comment]

def tag : ExprKind → String
  | .object => "object"
  | .concise => "concise_object"
  | .func => "func"
  | .ref => "ref"
  | .merge => "merge"
  | .args => "args"
  | .required => "required"
  | .string => "string"
  | .comment => "comment"

/-- The keys and contents of the parts of a kind, in their order. -/
def slots : ExprKind → List (String × Slot)
  | .object => [("name", .text), ("children", .nodes)]
  | .concise => [("name", .text), ("child", .node)]
  | .func => [("name", .text), ("params", .node), ("body", .node)]
  | .ref => [("key", .text), ("target", .text)]
  | .merge => [("inner", .node)]
  | .args => [("params", .nodes)]
  | .required => [("param", .node)]
  | .string => [("name", .text), ("default", .text)]
  | .comment => [("node", .node), ("text", .text)]

/-- What an array of the parts of a kind is called. -/
def row (kind : ExprKind) : Row :=
  let title :=
    match kind with
    | .object => "Object"
    | .concise => "ConciseObject"
    | .func => "Func"
    | .ref => "Ref"
    | .merge => "Merge"
    | .args => "Args"
    | .required => "Required"
    | .string => "String"
    | .comment => "Comment"
  ⟨"struct variant Node::" ++ title, kind.slots.length⟩

/-- The node of a kind with the given parts, when they are the parts of that kind. -/
def build : ExprKind → List Part → Option Expr
  | .object, [.text name, .nodes children] => some (.object name children)
  | .concise, [.text name, .node child] => some (.concise name child)
  | .func, [.text name, .node params, .node body] => some (.func name params body)
  | .ref, [.text key, .text target] => some (.ref key target)
  | .merge, [.node inner] => some (.merge inner)
  | .args, [.nodes params] => some (.args params)
  | .required, [.node param] => some (.required param)
  | .string, [.text name, .text default] => some (.string name default)
  | .comment, [.node node, .text text] => some (.comment node text)
  | _, _ => none

def ofWord (word : String) : Except ContentFault ExprKind :=
  match all.find? (·.tag == word) with
  | some kind => .ok kind
  | none => .error (.unknownVariant word (all.map tag))

/-- The kind of a JSON value: its word, or its place among the kinds. -/
def ofJson : Json → Except ContentFault ExprKind
  | .string word => ofWord word
  | .number (.integer (.ofNat index)) =>
    match all[index]? with
    | some kind => .ok kind
    | none => .error (.variantIndex index all.length)
  | other => .error (.wrongType (Json.found other) .variant)

def key : String :=
  "kind"

def among (found : Option ExprKind) : List (String × Json) → Except ContentFault ExprKind
  | [] =>
    match found with
    | some kind => .ok kind
    | none => .error (.missingKey key)
  | (name, value) :: rest =>
    if name == key then
      if found.isSome then .error (.repeatedKey key)
      else
        match ofJson value with
        | .error fault => .error fault
        | .ok kind => among (some kind) rest
    else among found rest

end ExprKind

/-- Reads a part of a node; the last two arguments read the value as one node and as several. -/
def Slot.read (slot : Slot) (value : Json)
    (node : Unit → Except ContentFault Expr) (nodes : Unit → Except ContentFault (List Expr)) :
    Except ContentFault Part :=
  match slot with
  | .text =>
    match value with
    | .string content => .ok (.text content)
    | other => .error (.wrongType (Json.found other) .string)
  | .node => (node ()).map .node
  | .nodes => (nodes ()).map .nodes

namespace Expr

/-! ### Writing -/

def tagged (kind : ExprKind) (parts : List (String × Json)) : Json :=
  .object ((ExprKind.key, .string kind.tag) :: parts)

mutual

def toJson : Expr → Json
  | .object name children =>
    tagged .object [("name", .string name), ("children", .array (toJsonAll children))]
  | .concise name child => tagged .concise [("name", .string name), ("child", toJson child)]
  | .func name params body =>
    tagged .func [("name", .string name), ("params", toJson params), ("body", toJson body)]
  | .ref key target => tagged .ref [("key", .string key), ("target", .string target)]
  | .merge inner => tagged .merge [("inner", toJson inner)]
  | .args params => tagged .args [("params", .array (toJsonAll params))]
  | .required param => tagged .required [("param", toJson param)]
  | .string name default =>
    tagged .string [("name", .string name), ("default", .string default)]
  | .comment node text => tagged .comment [("node", toJson node), ("text", .string text)]

def toJsonAll : List Expr → List Json
  | [] => []
  | node :: nodes => toJson node :: toJsonAll nodes

end

/-! ### Reading -/

/-- The node of a kind from parts that were met under their keys, in any order. -/
def assemble (kind : ExprKind) (parts : List (String × Part)) : Except ContentFault Expr :=
  match kind.slots.find? fun slot => (parts.lookup slot.1).isNone with
  | some slot => .error (.missingKey slot.1)
  | none =>
    match kind.build (kind.slots.filterMap fun slot => parts.lookup slot.1) with
    | some node => .ok node
    | none => .error (.missingKey ExprKind.key)

def assembleRow (kind : ExprKind) (parts : List Part) : Except ContentFault Expr :=
  match kind.build parts with
  | some node => .ok node
  | none => .error (.shortRow parts.length kind.row)

mutual

/-- The node that a JSON value stands for. -/
def ofJson : Json → Except ContentFault Expr
  | .object members =>
    match ExprKind.among none members with
    | .error fault => .error fault
    | .ok kind =>
      match readParts kind.slots [] members with
      | .error fault => .error fault
      | .ok parts => assemble kind parts
  | .array [] => .error (.missingKey ExprKind.key)
  | .array (tag :: items) =>
    match ExprKind.ofJson tag with
    | .error fault => .error fault
    | .ok kind =>
      match readRowParts kind 0 kind.slots items with
      | .error fault => .error fault
      | .ok parts => assembleRow kind parts
  | other => .error (.wrongType (Json.found other) .expr)

def ofJsonAll : List Json → Except ContentFault (List Expr)
  | [] => .ok []
  | item :: items =>
    match ofJson item with
    | .error fault => .error fault
    | .ok node => (ofJsonAll items).map (node :: ·)

/-- Reads the members that are parts, in the order of the text; `met` holds those read so far. -/
def readParts (slots : List (String × Slot)) (met : List (String × Part)) :
    List (String × Json) → Except ContentFault (List (String × Part))
  | [] => .ok met
  | (key, value) :: rest =>
    match slots.lookup key with
    | none => readParts slots met rest
    | some slot =>
      if (met.lookup key).isSome then .error (.repeatedKey key)
      else
        match slot.read value (fun _ => ofJson value)
          (fun _ =>
            match value with
            | .array items => ofJsonAll items
            | other => .error (.wrongType (Json.found other) .sequence))
        with
        | .error fault => .error fault
        | .ok part => readParts slots ((key, part) :: met) rest

/-- Reads the items that are parts; `count` of them were read before. -/
def readRowParts (kind : ExprKind) (count : Nat) :
    List (String × Slot) → List Json → Except ContentFault (List Part)
  | [], [] => .ok []
  | [], item :: items => .error (.longRow (count + (item :: items).length) count)
  | _ :: _, [] => .error (.shortRow count kind.row)
  | (_, slot) :: slots, value :: rest =>
    match slot.read value (fun _ => ofJson value)
      (fun _ =>
        match value with
        | .array items => ofJsonAll items
        | other => .error (.wrongType (Json.found other) .sequence))
    with
    | .error fault => .error fault
    | .ok part => (readRowParts kind (count + 1) slots rest).map (part :: ·)

end

end Expr

end Setters

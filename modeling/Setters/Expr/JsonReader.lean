import Setters.Expr.JsonForm

/-!
# Expression trees in JSON

A node is read as a whole before its parts are looked at: the value of every member but the kind
is read as a plain value first. So a fault in the form of the text, a bad kind and a second kind
win over anything that is wrong with the parts.
-/

namespace Setters

open Json

namespace ExprKind

def readJson : Reader ExprKind := fun cs =>
  match readString .variant cs with
  | .error halt => .error halt
  | .ok (word, rest) => settle id (ofContent rest (ofWord word))

end ExprKind

namespace Expr

def readMember (room : Nat) (state : Option ExprKind × List (String × Json)) (name : String) :
    Reader (Option ExprKind × List (String × Json)) := fun cs =>
  if name == ExprKind.key then
    if state.1.isSome then .error (.pending (.repeatedKey ExprKind.key) cs)
    else
      match readColon cs with
      | .error halt => .error halt
      | .ok cs => (ExprKind.readJson cs).map fun (kind, rest) => ((some kind, state.2), rest)
  else
    match readColon cs with
    | .error halt => .error halt
    | .ok cs => (readValue room cs).map fun (value, rest) =>
      ((state.1, (name, value) :: state.2), rest)

/-- Reads an item of a node written as an array: first the kind, then plain values. -/
def readItem (room : Nat) (state : Option ExprKind × List Json) :
    Reader (Option ExprKind × List Json) := fun cs =>
  match state.1 with
  | none => (ExprKind.readJson cs).map fun (kind, rest) => ((some kind, state.2), rest)
  | some kind => (readValue room cs).map fun (value, rest) => ((some kind, value :: state.2), rest)

def ofMembers (kind : Option ExprKind) (members : List (String × Json)) :
    Except ContentFault Expr :=
  match kind with
  | none => .error (.missingKey ExprKind.key)
  | some kind =>
    match readParts kind.slots [] members with
    | .error fault => .error fault
    | .ok parts => assemble kind parts

def ofItems (kind : Option ExprKind) (items : List Json) : Except ContentFault Expr :=
  match kind with
  | none => .error (.missingKey ExprKind.key)
  | some kind =>
    match readRowParts kind 0 kind.slots items with
    | .error fault => .error fault
    | .ok parts => assembleRow kind parts

/-- The node of parts that were read up to a text. What is wrong with them has no place, for they
are not read from the text any more; that there is no kind is noticed with the last of them. -/
def finish (kind : Option ExprKind) (rest : List Char) (node : Except ContentFault Expr) :
    Except Halt (Expr × List Char) :=
  let outcome := ofContent rest node
  if kind.isSome then outcome else settle id outcome

def readJson (room : Nat) : Reader Expr := fun cs =>
  match skipBlanks cs with
  | '\x7b' :: rest =>
    match room with
    | 0 => malformed (.before .tooDeep rest)
    | room + 1 =>
      match settle closeObject (readObject (readMember room) (none, []) rest) with
      | .error halt => .error halt
      | .ok ((kind, members), rest) => finish kind rest (ofMembers kind members.reverse)
  | '[' :: rest =>
    match room with
    | 0 => malformed (.before .tooDeep rest)
    | room + 1 =>
      match readArray (readItem room) (none, []) rest with
      | .error halt => .error halt
      | .ok ((kind, items), rest) => finish kind rest (ofItems kind items.reverse)
  | rest => mismatch .expr rest

def readJsonAll (room : Nat) : Reader (List Expr) := fun cs =>
  match skipBlanks cs with
  | '[' :: rest =>
    match room with
    | 0 => malformed (.before .tooDeep rest)
    | room + 1 =>
      (settle closeArray
        (readArray
          (fun nodes cs => (readJson room cs).map fun (node, rest) => (node :: nodes, rest))
          [] rest)).map fun (nodes, rest) => (nodes.reverse, rest)
  | rest => mismatch .sequence rest

def ofJsonText (text : String) : Except Fault Expr :=
  readDocument readJson text

def listOfJsonText (text : String) : Except Fault (List Expr) :=
  readDocument readJsonAll text

end Expr

end Setters

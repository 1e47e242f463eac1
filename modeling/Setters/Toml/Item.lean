import Setters.Binary64

/-!
# TOML documents

A TOML document as a tree that still knows where its parts stand in the text and in which form
each table was written. The entries of a table are kept in the order in which they were made.
-/

namespace Setters.Toml

/-- A part of a text, in bytes from its start; `stop` is the first byte after it. -/
structure Span where
  start : Nat
  stop : Nat
deriving DecidableEq, Inhabited

structure Key where
  name : String
  span : Span
deriving DecidableEq, Inhabited

/-- A value without parts. A date or time is kept as its text in normal form. -/
inductive Scalar where
  | string (value : String)
  | integer (value : Int)
  | real (value : Binary64)
  | boolean (value : Bool)
  | dateTime (text : String)
deriving DecidableEq

/-- How a table came to be. -/
inductive TableForm where
  /-- By a header of its own, or as the root. -/
  | header
  /-- By the header of a table inside it. -/
  | implied
  /-- By a dotted key. -/
  | dotted
  /-- As a value between braces. -/
  | inline
  /-- By a dotted key between braces. -/
  | inlineDotted
deriving DecidableEq

/-- Whether further keys may be added by a header or a dotted key. -/
def TableForm.isImplicit : TableForm → Bool
  | .implied | .dotted | .inlineDotted => true
  | .header | .inline => false

def TableForm.isDotted : TableForm → Bool
  | .dotted | .inlineDotted => true
  | .header | .implied | .inline => false

def TableForm.isInline : TableForm → Bool
  | .inline | .inlineDotted => true
  | .header | .implied | .dotted => false

/-- A table with entries in `α`. -/
structure Table (α : Type) where
  form : TableForm
  entries : List (Key × α)
  span : Option Span

inductive Item where
  | scalar (value : Scalar) (span : Span)
  | array (items : List Item) (span : Span)
  | table (t : Table Item)
  /-- An array of tables, each with a header of its own. -/
  | tables (items : List Item) (span : Option Span)

namespace Table

variable {α : Type}

def find? (table : Table α) (name : String) : Option α :=
  (table.entries.find? (·.1.name == name)).map Prod.snd

def push (table : Table α) (key : Key) (value : α) : Table α :=
  { table with entries := table.entries ++ [(key, value)] }

def replace (table : Table α) (name : String) (value : α) : Table α :=
  { table with
    entries := table.entries.map fun (key, old) =>
      (key, if key.name == name then value else old) }

def erase (table : Table α) (name : String) : Table α :=
  { table with entries := table.entries.filter (·.1.name != name) }

end Table

namespace Item

/-- Where the item stands; a table that no text of its own makes stands nowhere. -/
def span? : Item → Option Span
  | .scalar _ span | .array _ span => some span
  | .table t => t.span
  | .tables _ span => span

def typeName : Item → String
  | .scalar (.string _) _ => "string"
  | .scalar (.integer _) _ => "integer"
  | .scalar (.real _) _ => "float"
  | .scalar (.boolean _) _ => "boolean"
  | .scalar (.dateTime _) _ => "datetime"
  | .array .. => "array"
  | .table t => if t.form.isInline then "inline table" else "table"
  | .tables .. => "array of tables"

end Item

end Setters.Toml

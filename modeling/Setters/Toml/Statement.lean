import Setters.Toml.Token

/-!
# Values and statements of TOML

A document is a sequence of statements: a key with its value, or the header of a table or of one
more table of an array. `statements` reads them all; where the text stops being TOML it gives
the statements before that place, and the failure.

The entries of a table between braces are put in place here, since such a table is complete when
its brace closes.
-/

namespace Setters.Toml

open Scanner

/-! ### Tables between braces -/

/-- An entry that is not put in place yet: a key, the dotted keys before it, and the value. -/
structure Entry where
  path : List Key
  key : Key
  value : Item

/-- The keys of a dotted key as the path to its last key. -/
def splitKeys : List Key → Option (List Key × Key)
  | [] => none
  | [key] => some ([], key)
  | key :: keys => (splitKeys keys).map fun (path, last) => (key :: path, last)

def names (keys : List Key) : List String :=
  keys.map Key.name

/-- Adds an entry to a table whose keys a dotted key led to. A key that leads through the table
must find it made by a dotted key, one that does not must find it made otherwise. -/
def addEntry (viaDots : Bool) (key : Key) (value : Item) (owner : Option (List String))
    (table : Table Item) : Except Cause (Table Item) :=
  if table.form.isDotted != viaDots then .error (.duplicateKey key.name none)
  else
    match table.find? key.name with
    | some _ => .error (.duplicateKey key.name owner)
    | none => .ok (table.push key value)

/-- Goes down the keys of an entry between braces from a table, `before` being the names passed
so far, and changes the table they lead to. -/
def reachInline (change : Table Item → Except Cause (Table Item)) (before : List String) :
    List Key → Table Item → Except Cause (Table Item)
  | [], table => change table
  | key :: keys, table =>
    match table.find? key.name with
    | none =>
      match reachInline change (before ++ [key.name]) keys ⟨.inlineDotted, [], none⟩ with
      | .error cause => .error cause
      | .ok inner => .ok (table.push key (.table inner))
    | some (.table inner) =>
      if !inner.form.isImplicit then .error (.duplicateKey key.name none)
      else
        match reachInline change (before ++ [key.name]) keys inner with
        | .error cause => .error cause
        | .ok inner => .ok (table.replace key.name (.table inner))
    | some other => .error (.notTable (before ++ [key.name]) other.typeName)

def inlineTable (entries : List Entry) : Except Cause (Table Item) :=
  entries.foldlM
    (fun table entry =>
      reachInline (addEntry (!entry.path.isEmpty) entry.key entry.value none) [] entry.path table)
    ⟨.inline, [], none⟩

/-! ### Values -/

def numeric : Scanner Scalar :=
  dateTime.orElse <| real.orElse integer

/-- Fails as for a string that lacks its quotes. -/
def bareWord {α : Type} (scanner : Scanner α) : Scanner α :=
  expecting (.char '\'') <| expecting (.char '"') <| label "string" scanner

def scalar : Scanner Scalar := do
  match ← peek any with
  | '"' | '\'' => return .string (String.ofList (← anyString))
  | '_' => expecting (.phrase "leading digit") integer
  | '.' => expecting (.phrase "leading digit") real
  | 't' => bareWord <| commit do word ['t', 'r', 'u', 'e']; return .boolean true
  | 'f' => bareWord <| commit do word ['f', 'a', 'l', 's', 'e']; return .boolean false
  | 'i' => bareWord do return .real (← infinity)
  | 'n' => bareWord do return .real (← notANumber)
  | c => if c == '+' || c == '-' || c.isDigit then numeric else bareWord fail

def equals : Scanner Unit := do
  let _ ← expecting (.char '=') (expecting (.char '.') (char '='))

def entry (value : Scanner Item) (rest : Scanner Unit) : Scanner Entry := do
  let keys ← dottedKey
  commit do
    equals
    blanks
    let value ← value
    rest
    match splitKeys keys with
    | some (path, key) => return ⟨path, key, value⟩
    | none => fail

/-- An array after its bracket was seen, given a scanner for values. -/
def array (value : Scanner Item) : Scanner (List Item) := do
  let _ ← char '['
  let item : Scanner Item := do
    spacing
    let item ← value
    spacing
    return item
  let items ← commit do
    let items ← separated item (char ',')
    if !items.isEmpty then
      let _ ← optional (char ',')
    spacing
    return items
  let _ ← expecting (.char ']') (label "array" (commit (char ']')))
  return items

def braced (value : Scanner Item) : Scanner (Table Item) := do
  let _ ← char '\x7b'
  let entries : Scanner (List Entry) := do
    let entries ← separated (entry value blanks) (char ',')
    blanks
    return entries
  let table ← commit (check entries inlineTable)
  let _ ← expecting (.char '\x7d') (label "inline table" (commit (char '\x7d')))
  return table

/-- A value whose brackets nest at most `room` deep. -/
def value : Nat → Scanner Item
  | room, input =>
    match input.chars with
    | '[' :: _ =>
      match room with
      | 0 => .error { offset := input.offset, committed := true, cause := some .tooDeep }
      | room + 1 =>
        match array (value room) input with
        | .error failure => .error failure
        | .ok (items, rest) => .ok (.array items ⟨input.offset, rest.offset⟩, rest)
    | '\x7b' :: _ =>
      match room with
      | 0 => .error { offset := input.offset, committed := true, cause := some .tooDeep }
      | room + 1 =>
        match braced (value room) input with
        | .error failure => .error failure
        | .ok (table, rest) =>
          .ok (.table { table with span := some ⟨input.offset, rest.offset⟩ }, rest)
    | _ =>
      match scalar input with
      | .error failure => .error failure
      | .ok (scalar, rest) => .ok (.scalar scalar ⟨input.offset, rest.offset⟩, rest)

/-! ### Statements -/

/-- A statement; headers are kept with the place where they stand. -/
inductive Statement where
  | entry (entry : Entry)
  | table (path : List Key) (key : Key) (span : Span)
  | tables (path : List Key) (key : Key) (span : Span)

def statementEnd : Scanner Unit :=
  expecting (.char '#') (expecting (.char '\n') lineRest)

def header (opening closing : List Char)
    (make : List Key → Key → Span → Statement) : Scanner Statement := do
  let start ← offset
  word opening
  let keys ← commit dottedKey
  expecting (.text (String.ofList closing)) (expecting (.char '.') (commit (word closing)))
  let stop ← offset
  commit statementEnd
  match splitKeys keys with
  | some (path, key) => return make path key ⟨start, stop⟩
  | none => fail

def anyHeader : Scanner Statement :=
  label "table header" fun input =>
    match input.chars with
    | '[' :: '[' :: _ => header ['[', '['] [']', ']'] .tables input
    | [_] => fail input
    | _ => header ['['] [']'] .table input

/-- A line: a statement and the byte at which it starts, or nothing. -/
def line : Scanner (Option (Nat × Statement)) := do
  let start ← offset
  let statement ←
    match ← peek any with
    | '#' => commit do comment; lineEnd; return none
    | '[' => commit do return some (start, ← anyHeader)
    | '\n' | '\r' => (do newline; return none)
    | _ => commit do return some (start, .entry (← entry (value (depthLimit - 1)) statementEnd))
  blanks
  return statement

/-- The lines up to the end of the text or to a failure; the first argument bounds their
number. -/
def lines : Nat → Input → List (Nat × Statement) × Option Failure
  | 0, _ => ([], none)
  | fuel + 1, input =>
    match line input with
    | .ok (statement, rest) =>
      let (statements, failure) := lines fuel rest
      (statement.toList ++ statements, failure)
    | .error failure =>
      if failure.committed then ([], some failure)
      else
        match atEnd input with
        | .ok _ => ([], none)
        | .error failure => ([], some failure)

def byteOrderMark : Char :=
  '\uFEFF'

/-- The statements of a text, each with the byte at which it starts, and the failure that ends
them. -/
def statements (text : String) : List (Nat × Statement) × Option Failure :=
  let start : Scanner Unit := do
    let _ ← optional (char byteOrderMark)
    blanks
  match start ⟨0, text.toList⟩ with
  | .ok ((), input) => lines (input.chars.length + 1) input
  | .error failure => ([], some failure)

end Setters.Toml

import Setters.Toml.Statement

/-!
# From statements to a document

Statements are carried out one after the other. Entries go into the table of the last header;
when the next header comes, that table takes its place in the document. A header may name a
table that the header of an inner table implied, but no table twice.

`Document.parse` gives the root of a text, or the first failure: of a statement that cannot be
carried out, or of the text behind the statements.
-/

namespace Setters.Toml

/-- A document under way: the root, the table of the last header with the keys that lead to it,
and whether that table is one of an array. -/
structure Draft where
  root : Table Item
  current : Table Item
  path : List Key
  isMember : Bool

def emptyTable (span : Option Span) : Table Item :=
  ⟨.header, [], span⟩

def Draft.empty : Draft :=
  ⟨emptyTable none, emptyTable none, [], false⟩

/-- The span from the start of the first to the end of the last of some items. -/
def spanOf (items : List Item) : Option Span :=
  match items.head?.bind Item.span?, items.getLast?.bind Item.span? with
  | some first, some last => some ⟨first.start, last.stop⟩
  | _, _ => none

/-- Goes down some keys from a table and changes the table they lead to, `before` being the
names passed so far. Tables that are missing are made, in the given form. Of an array of tables
the last one is entered. A dotted key may only enter a table that is implicit. -/
def reach {α : Type} (form : TableForm) (change : Table Item → Except Cause (Table Item × α))
    (before : List String) : List Key → Table Item → Except Cause (Table Item × α)
  | [], table => change table
  | key :: keys, table =>
    let before := before ++ [key.name]
    match table.find? key.name with
    | none =>
      match reach form change before keys ⟨form, [], none⟩ with
      | .error cause => .error cause
      | .ok (inner, a) => .ok (table.push key (.table inner), a)
    | some (.table inner) =>
      if inner.form.isInline then .error (.notTable before (Item.table inner).typeName)
      else if form.isDotted && !inner.form.isImplicit then
        .error (.duplicateKey key.name none)
      else
        match reach form change before keys inner with
        | .error cause => .error cause
        | .ok (inner, a) => .ok (table.replace key.name (.table inner), a)
    | some (.tables items span) =>
      match items.getLast? with
      | some (.table inner) =>
        match reach form change before keys inner with
        | .error cause => .error cause
        | .ok (inner, a) =>
          .ok (table.replace key.name (.tables (items.dropLast ++ [.table inner]) span), a)
      | _ => .error (.notTable before "array of tables")
    | some other => .error (.notTable before other.typeName)

def only (change : Table Item → Except Cause (Table Item)) (table : Table Item) :
    Except Cause (Table Item × Unit) :=
  (change table).map (·, ())

def placeMember (owner : List String) (key : Key) (member parent : Table Item) :
    Except Cause (Table Item) :=
  match parent.find? key.name with
  | none => .ok (parent.push key (.tables [.table member] member.span))
  | some (.tables items _) =>
    let items := items ++ [.table member]
    .ok (parent.replace key.name (.tables items (spanOf items)))
  | some _ => .error (.duplicateKey key.name (some owner))

def placeTable (owner : List String) (key : Key) (table parent : Table Item) :
    Except Cause (Table Item) :=
  match parent.find? key.name with
  | none => .ok (parent.push key (.table table))
  | some (.table old) =>
    if old.form.isImplicit && !old.form.isInline then
      .ok (parent.replace key.name (.table table))
    else .error (.duplicateKey key.name (some owner))
  | some _ => .error (.duplicateKey key.name (some owner))

def Draft.settle (draft : Draft) : Except Cause (Table Item) :=
  match splitKeys draft.path with
  | none => .ok draft.current
  | some (path, key) =>
    let place := if draft.isMember then placeMember else placeTable
    (reach .implied (only (place (names path) key draft.current)) [] path draft.root).map Prod.fst

/-- Takes a table out of its parent to go on with it: an implied one, or a new one. -/
def takeTable (owner : List String) (key : Key) (span : Span) (parent : Table Item) :
    Except Cause (Table Item × Table Item) :=
  match parent.find? key.name with
  | none => .ok (parent, emptyTable (some span))
  | some (.table old) =>
    if old.form = .implied then
      .ok (parent.erase key.name, { old with form := .header, span := some span })
    else .error (.duplicateKey key.name (some owner))
  | some _ => .error (.duplicateKey key.name (some owner))

def openTables (owner : List String) (key : Key) (parent : Table Item) :
    Except Cause (Table Item) :=
  match parent.find? key.name with
  | none => .ok (parent.push key (.tables [] none))
  | some (.tables ..) => .ok parent
  | some _ => .error (.duplicateKey key.name (some owner))

def Draft.run (draft : Draft) : Statement → Except Cause Draft
  | .entry entry =>
    let span :=
      match draft.current.span, entry.value.span? with
      | some old, some new => some ⟨old.start, new.stop⟩
      | old, _ => old
    let change := addEntry (!entry.path.isEmpty) entry.key entry.value (some (names draft.path))
    match reach .dotted (only change) [] entry.path { draft.current with span } with
    | .error cause => .error cause
    | .ok (current, ()) => .ok { draft with current }
  | .table path key span =>
    match draft.settle with
    | .error cause => .error cause
    | .ok root =>
      match reach .implied (takeTable (names path) key span) [] path root with
      | .error cause => .error cause
      | .ok (root, current) => .ok ⟨root, current, path ++ [key], false⟩
  | .tables path key span =>
    match draft.settle with
    | .error cause => .error cause
    | .ok root =>
      match reach .implied (only (openTables (names path) key)) [] path root with
      | .error cause => .error cause
      | .ok (root, ()) => .ok ⟨root, emptyTable (some span), path ++ [key], true⟩

/-- Carries out statements, each with the byte at which it starts. -/
def Draft.runAll (draft : Draft) : List (Nat × Statement) → Except Failure Draft
  | [] => .ok draft
  | (offset, statement) :: rest =>
    match draft.run statement with
    | .error cause => .error { offset, committed := true, cause := some cause }
    | .ok draft => draft.runAll rest

def parse (text : String) : Except Failure (Table Item) :=
  let (statements, failure) := statements text
  match Draft.empty.runAll statements with
  | .error failure => .error failure
  | .ok draft =>
    match failure with
    | some failure => .error failure
    | none =>
      match draft.settle with
      | .error cause => .error { offset := text.utf8ByteSize, cause := some cause }
      | .ok root => .ok root

end Setters.Toml

import Setters.Schema.Draft
import Setters.Toml.Document

/-!
# Schemas in TOML

What the items of a TOML document mean as a schema. The records are those of JSON documents,
visited in the order of the document. There is no null, an array may have more items than the
record has entries, and a date or time is a table of one private key.

A refusal tells where in the text it arose: at the key or the item that is refused, or at the
innermost item around it that stands somewhere.
-/

namespace Setters

open Toml

/-- Why the content of a TOML document is refused, and where. -/
structure Toml.Refusal where
  fault : ContentFault
  span : Option Span
deriving DecidableEq

namespace Toml

/-- Refuses content without saying where. -/
def refuse {α : Type} (fault : ContentFault) : Except Refusal α :=
  .error ⟨fault, none⟩

def ofContent {α : Type} : Except ContentFault α → Except Refusal α
  | .ok a => .ok a
  | .error fault => refuse fault

/-- Says where a refusal arose, unless it says so already. -/
def locate {α : Type} (span : Option Span) : Except Refusal α → Except Refusal α
  | .ok a => .ok a
  | .error refusal => .error { refusal with span := refusal.span <|> span }

/-- The key under which the parts of a date or time are found. -/
def dateTimeKey : String :=
  "$__toml_private_datetime"

def found : Item → Found
  | .scalar (.string value) _ => .string value
  | .scalar (.integer value) _ => .integer value
  | .scalar (.real value) _ => .real value
  | .scalar (.boolean value) _ => .boolean value
  | .scalar (.dateTime _) _ => .map
  | .array .. => .sequence
  | .tables .. => .sequence
  | .table _ => .map

def mismatch {α : Type} (wanted : Wanted) (item : Item) : Except Refusal α :=
  .error ⟨.wrongType (found item) wanted, item.span?⟩

def readString : Item → Except Refusal String
  | .scalar (.string value) _ => .ok value
  | item => mismatch .string item

end Toml

/-! ### Leaves -/

def TargetPath.ofToml (item : Item) : Except Refusal TargetPath :=
  locate item.span? <|
    match readString item with
    | .error refusal => .error refusal
    | .ok text => ofContent (ofText text)

/-- An empty table or array, as it stands beside the word of a kind. -/
def Toml.readEmpty : Item → Except Refusal Unit
  | .table ⟨_, [], _⟩ | .array [] _ | .tables [] _ => .ok ()
  | .table _ | .array .. => refuse .tableNotEmpty
  | .tables .. => refuse .tablesNotEmpty
  | other => refuse (.notTable other.typeName)

/-- The kind of an item: its word, or a table of which it is the only key, beside an empty
table or array. -/
def ValueKind.ofToml (item : Item) : Except Refusal ValueKind :=
  locate item.span? <|
    match item with
    | .scalar (.string word) _ => ofContent (ofWord word)
    | .table ⟨_, [], _⟩ => refuse (.notOneElement false)
    | .table ⟨_, [(key, value)], _⟩ =>
      match locate (some key.span) (ofContent (ofWord key.name)) with
      | .error refusal => .error refusal
      | .ok kind =>
        locate value.span? ((readEmpty value).map fun _ => kind)
    | .table _ => refuse (.notOneElement true)
    | _ => refuse .notWordOrTable

/-! ### Fields -/

/-- Adds an entry to the draft of a field; `fields` reads the item as the fields of a group. -/
def FieldDraft.ofToml (draft : FieldDraft) (key : FieldKey) (item : Item)
    (fields : Unit → Except Refusal Fields) : Except Refusal FieldDraft :=
  match key with
  | .help => (readString item).map fun text => { draft with help := some (some text) }
  | .fields => (fields ()).map fun fields => { draft with fields := some (some fields) }
  | .parameter => (readString item).map fun text => { draft with parameter := some (some text) }
  | .type => (ValueKind.ofToml item).map fun kind => { draft with type := some (some kind) }
  | .target => (TargetPath.ofToml item).map fun path => { draft with target := some (some path) }

mutual

def OrderedField.ofToml : Item → Except Refusal OrderedField
  | .table ⟨_, entries, span⟩ =>
    match locate span (Fields.readEntries {} entries) with
    | .error refusal => .error refusal
    | .ok draft => ofContent draft.resolve
  | .array items span =>
    match locate (some span) (Fields.readRow {} 0 fieldRecord.keys items) with
    | .error refusal => .error refusal
    | .ok draft => ofContent draft.resolve
  | .tables items span =>
    match locate span (Fields.readRow {} 0 fieldRecord.keys items) with
    | .error refusal => .error refusal
    | .ok draft => ofContent draft.resolve
  | .scalar (.dateTime _) span =>
    locate (some span) (refuse (.unknownKey dateTimeKey fieldRecord.words))
  | item => mismatch .field item

def Fields.readEntries (draft : FieldDraft) : List (Key × Item) → Except Refusal FieldDraft
  | [] => .ok draft
  | (key, item) :: rest =>
    match fieldRecord.admissible draft key.name with
    | .error fault => .error ⟨fault, some key.span⟩
    | .ok name =>
      match locate (item.span? <|> some key.span)
        (FieldDraft.ofToml draft name item fun _ => Fields.ofToml item) with
      | .error refusal => .error refusal
      | .ok draft => Fields.readEntries draft rest

/-- Reads the entries of a field written as an array; `count` of them were read before. -/
def Fields.readRow (draft : FieldDraft) (count : Nat) :
    List FieldKey → List Item → Except Refusal FieldDraft
  | [], _ => .ok draft
  | _ :: _, [] => ofContent (fieldRecord.short count draft)
  | name :: names, item :: items =>
    match locate item.span?
      (FieldDraft.ofToml draft name item fun _ => Fields.ofToml item) with
    | .error refusal => .error refusal
    | .ok draft => Fields.readRow draft (count + 1) names items

def Fields.ofToml : Item → Except Refusal Fields
  | .table ⟨_, entries, _⟩ => Fields.ofEntries .empty entries
  | .scalar (.dateTime text) span =>
    locate (some span) (refuse (.wrongType (.string text) .field))
  | item => mismatch .map item

def Fields.ofEntries (fields : Fields) : List (Key × Item) → Except Refusal Fields
  | [] => .ok fields
  | (key, item) :: rest =>
    match locate (item.span? <|> some key.span) (OrderedField.ofToml item) with
    | .error refusal => .error refusal
    | .ok field => Fields.ofEntries (fields.insert key.name field) rest

end

/-! ### Schemas -/

def SchemaDraft.ofToml (draft : SchemaDraft) (key : SchemaKey) (item : Item) :
    Except Refusal SchemaDraft :=
  match key with
  | .help => (readString item).map fun text => { draft with help := some (some text) }
  | .fields => (Fields.ofToml item).map fun fields => { draft with fields := some fields }

def SchemaDraft.readEntries (draft : SchemaDraft) :
    List (Key × Item) → Except Refusal SchemaDraft
  | [] => .ok draft
  | (key, item) :: rest =>
    match schemaRecord.admissible draft key.name with
    | .error fault => .error ⟨fault, some key.span⟩
    | .ok name =>
      match locate (item.span? <|> some key.span) (SchemaDraft.ofToml draft name item) with
      | .error refusal => .error refusal
      | .ok draft => readEntries draft rest

def Schema.ofToml (root : Table Item) : Except Refusal Schema :=
  (SchemaDraft.readEntries {} root.entries).map SchemaDraft.resolve

/-- Why a TOML text is refused: it is no document, or its content is wrong. -/
inductive Toml.Fault where
  | malformed (failure : Failure)
  | content (refusal : Refusal)
deriving DecidableEq

def Schema.ofTomlText (text : String) : Except Toml.Fault Schema :=
  match parse text with
  | .error failure => .error (.malformed failure)
  | .ok root =>
    match ofToml root with
    | .error refusal => .error (.content refusal)
    | .ok schema => .ok schema

end Setters

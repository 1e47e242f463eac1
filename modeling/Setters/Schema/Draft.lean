import Setters.Record
import Setters.Schema

/-!
# Written schemas

The records that schema documents are made of, and what is made of them once they are read.

A field is a modifier when it has a target (section 10.3 of the specification). Then it must have
a parameter and a type, and no part of a group; without a target it must have no part of a
modifier. An entry that is null counts as absent here, but not as unread: two entries of one key
are refused even if one is null.
-/

namespace Setters

/-! ### Words -/

def ValueKind.ofWord (word : String) : Except ContentFault ValueKind :=
  match ofWord? word with
  | some kind => .ok kind
  | none => .error (.unknownVariant word (all.map ValueKind.word))

def TargetPath.ofText (text : String) : Except ContentFault TargetPath :=
  match parse text with
  | .ok path => .ok path
  | .error fault => .error (.path fault)

/-! ### Fields -/

inductive FieldKey where
  | help
  | fields
  | parameter
  | type
  | target
deriving DecidableEq

/-- What was read of a field: for each key whether it was met, and its value unless that is
null. -/
structure FieldDraft where
  help : Option (Option String) := none
  fields : Option (Option Fields) := none
  parameter : Option (Option String) := none
  type : Option (Option ValueKind) := none
  target : Option (Option TargetPath) := none

def fieldRecord : Record FieldDraft FieldKey where
  wanted := .field
  keys := [.help, .fields, .parameter, .type, .target]
  word
    | .help => "help"
    | .fields => "fields"
    | .parameter => "parameter"
    | .type => "type"
    | .target => "target"
  start := {}
  has draft
    | .help => draft.help.isSome
    | .fields => draft.fields.isSome
    | .parameter => draft.parameter.isSome
    | .type => draft.type.isSome
    | .target => draft.target.isSome
  short count _ := .error (.shortRow count ⟨"struct RawNode", 5⟩)

def FieldDraft.resolve (draft : FieldDraft) : Except ContentFault OrderedField :=
  let help := draft.help.join
  let fields := draft.fields.join
  let parameter := draft.parameter.join
  let type := draft.type.join
  match draft.target.join with
  | none =>
    if parameter.isSome || type.isSome then .error .missingTarget
    else .ok (Schema.mk help (fields.getD .empty)).toField
  | some target =>
    if fields.isSome || help.isSome then .error (.mixedModifier target)
    else
      match parameter with
      | none => .error (.missingParameter target)
      | some parameter =>
        match type with
        | none => .error (.missingType target)
        | some kind => .ok (Modifier.mk parameter kind target).toField

/-! ### Schemas -/

inductive SchemaKey where
  | help
  | fields
deriving DecidableEq

/-- What was read of a schema: for each key whether it was met, and its value; only the help
may be null. -/
structure SchemaDraft where
  help : Option (Option String) := none
  fields : Option Fields := none

/-- The record of a schema. An array may lack its last entries. -/
def schemaRecord : Record SchemaDraft SchemaKey where
  wanted := .schema
  keys := [.help, .fields]
  word
    | .help => "help"
    | .fields => "fields"
  start := {}
  has draft
    | .help => draft.help.isSome
    | .fields => draft.fields.isSome
  short _ draft := .ok draft

def SchemaDraft.resolve (draft : SchemaDraft) : Schema :=
  ⟨draft.help.join, draft.fields.getD .empty⟩

/-! ### Modifiers -/

inductive ModifierKey where
  | parameter
  | type
  | target
deriving DecidableEq

structure ModifierDraft where
  parameter : Option String := none
  type : Option ValueKind := none
  target : Option TargetPath := none

def modifierRecord : Record ModifierDraft ModifierKey where
  wanted := .modifier
  keys := [.parameter, .type, .target]
  word
    | .parameter => "parameter"
    | .type => "type"
    | .target => "target"
  start := {}
  has draft
    | .parameter => draft.parameter.isSome
    | .type => draft.type.isSome
    | .target => draft.target.isSome
  short count _ := .error (.shortRow count ⟨"struct Modifier", 3⟩)

/-- The modifier that a draft describes; every entry is needed. -/
def ModifierDraft.resolve (draft : ModifierDraft) : Except ContentFault Modifier :=
  match draft.parameter, draft.type, draft.target with
  | none, _, _ => .error (.missingKey "parameter")
  | some _, none, _ => .error (.missingKey "type")
  | some _, some _, none => .error (.missingKey "target")
  | some parameter, some kind, some target => .ok ⟨parameter, kind, target⟩

end Setters

import Setters.Json.Reader
import Setters.Schema.Draft

/-!
# Schemas in JSON

The readers of schema documents and of their parts. Each reads its value in one pass and reports
the first fault met.
-/

namespace Setters

open Json

/-! ### Records -/

/-- Reads a record: the members of an object, or the items of an array. `entry` reads the value
of a key into the draft; it is given one level less than the record has. -/
def Record.readJson {σ κ : Type} (record : Record σ κ) (entry : σ → κ → Reader σ) :
    Reader σ := fun cs =>
  match skipBlanks cs with
  | '\x7b' :: rest =>
    settle closeObject
      (readObject
        (fun draft word cs =>
          match record.admissible draft word with
          | .error fault => .error (.pending fault cs)
          | .ok key =>
            match readColon cs with
            | .error halt => .error halt
            | .ok cs => entry draft key cs)
        record.start rest)
  | '[' :: rest =>
    settle closeArray (readRow entry record.short record.keys 0 record.start rest)
  | rest => mismatch record.wanted rest

/-- Reads where no bracket may open any more, but a record is wanted. -/
def Record.readShut {σ κ α : Type} (record : Record σ κ) : Reader α := fun cs =>
  match skipBlanks cs with
  | '\x7b' :: rest => malformed (.before .tooDeep rest)
  | '[' :: rest => malformed (.before .tooDeep rest)
  | rest => mismatch record.wanted rest

/-! ### Leaves -/

def TargetPath.readJson : Reader TargetPath := fun cs =>
  match readString .string cs with
  | .error halt => .error halt
  | .ok (text, rest) => ofContent rest (ofText text)

def readNull : Reader Unit := fun cs =>
  match skipBlanks cs with
  | 'n' :: rest => ofForm (readWord () ['u', 'l', 'l'] rest)
  | rest => mismatch .unit rest

/-- Reads the word of a kind where the first key of an object has to stand. -/
def readWordKey : Reader String := fun cs =>
  match skipBlanks cs with
  | [] => malformed (.atEnd .endInObject)
  | '"' :: rest => ofForm (readText rest)
  | '\x7d' :: rest => malformed (.within .expectedValue ('\x7d' :: rest))
  | c :: rest => malformed (.within .keyNotString (c :: rest))

/-- Reads a kind after the opening brace of an object: its word is the only key, beside null. -/
def ValueKind.readJsonObject : Reader ValueKind := fun cs =>
  match readWordKey cs with
  | .error halt => .error halt
  | .ok (word, rest) =>
    match settle id (ofContent rest (ofWord word)) with
    | .error halt => .error halt
    | .ok (kind, rest) =>
      match readColon rest with
      | .error halt => .error halt
      | .ok rest =>
        match readNull rest with
        | .error halt => .error halt
        | .ok ((), rest) =>
          match skipBlanks rest with
          | [] => malformed (.atEnd .endInObject)
          | '\x7d' :: rest => .ok (kind, rest)
          | c :: rest => malformed (.before .expectedValue (c :: rest))

/-- Reads a kind: its word, or an object of which it is the only key. -/
def ValueKind.readJson (room : Nat) : Reader ValueKind := fun cs =>
  match skipBlanks cs with
  | [] => malformed (.atEnd .endInValue)
  | '"' :: rest =>
    match ofForm (readText rest) with
    | .error halt => .error halt
    | .ok (word, rest) => settle id (ofContent rest (ofWord word))
  | '\x7b' :: rest =>
    match room with
    | 0 => malformed (.before .tooDeep rest)
    | _ + 1 => readJsonObject rest
  | c :: rest => malformed (.within .expectedValue (c :: rest))

/-! ### Modifiers -/

def ModifierDraft.readJson (room : Nat) (draft : ModifierDraft) :
    ModifierKey → Reader ModifierDraft
  | .parameter => fun cs => (readString .string cs).map fun (text, rest) =>
    ({ draft with parameter := some text }, rest)
  | .type => fun cs => (ValueKind.readJson room cs).map fun (kind, rest) =>
    ({ draft with type := some kind }, rest)
  | .target => fun cs => (TargetPath.readJson cs).map fun (path, rest) =>
    ({ draft with target := some path }, rest)

def Modifier.readJson : Nat → Reader Modifier
  | 0 => modifierRecord.readShut
  | room + 1 => fun cs =>
    match modifierRecord.readJson (ModifierDraft.readJson room) cs with
    | .error halt => .error halt
    | .ok (draft, rest) => settle id (ofContent rest draft.resolve)

/-! ### Fields -/

def FieldDraft.readJson (readFields : Reader Fields) (room : Nat) (draft : FieldDraft) :
    FieldKey → Reader FieldDraft
  | .help => fun cs => (readOption (readString .string) cs).map fun (text, rest) =>
    ({ draft with help := some text }, rest)
  | .fields => fun cs => (readOption readFields cs).map fun (fields, rest) =>
    ({ draft with fields := some fields }, rest)
  | .parameter => fun cs => (readOption (readString .string) cs).map fun (text, rest) =>
    ({ draft with parameter := some text }, rest)
  | .type => fun cs => (readOption (ValueKind.readJson room) cs).map fun (kind, rest) =>
    ({ draft with type := some kind }, rest)
  | .target => fun cs => (readOption TargetPath.readJson cs).map fun (path, rest) =>
    ({ draft with target := some path }, rest)

mutual

def OrderedField.readJson : Nat → Reader OrderedField
  | 0 => fieldRecord.readShut
  | room + 1 => fun cs =>
    match fieldRecord.readJson (FieldDraft.readJson (Fields.readJson room) room) cs with
    | .error halt => .error halt
    | .ok (draft, rest) => ofContent rest draft.resolve

/-- Reads the fields of a group. Every value is read and checked; of several with one name the
last one counts. -/
def Fields.readJson : Nat → Reader Fields
  | 0 => fun cs =>
    match skipBlanks cs with
    | '\x7b' :: rest => malformed (.before .tooDeep rest)
    | rest => mismatch .map rest
  | room + 1 => fun cs =>
    match skipBlanks cs with
    | '\x7b' :: rest =>
      settle closeObject
        (readObject
          (fun fields name cs =>
            match readColon cs with
            | .error halt => .error halt
            | .ok cs =>
              (OrderedField.readJson room cs).map fun (field, rest) =>
                (fields.insert name field, rest))
          Fields.empty rest)
    | rest => mismatch .map rest

end

/-! ### Schemas -/

def SchemaDraft.readJson (room : Nat) (draft : SchemaDraft) : SchemaKey → Reader SchemaDraft
  | .help => fun cs => (readOption (readString .string) cs).map fun (text, rest) =>
    ({ draft with help := some text }, rest)
  | .fields => fun cs => (Fields.readJson room cs).map fun (fields, rest) =>
    ({ draft with fields := some fields }, rest)

def Schema.readJson : Nat → Reader Schema
  | 0 => schemaRecord.readShut
  | room + 1 => fun cs =>
    (schemaRecord.readJson (SchemaDraft.readJson room) cs).map fun (draft, rest) =>
      (draft.resolve, rest)

def Schema.ofJsonText (text : String) : Except Fault Schema :=
  readDocument Schema.readJson text

def OrderedField.ofJsonText (text : String) : Except Fault OrderedField :=
  readDocument OrderedField.readJson text

def Modifier.ofJsonText (text : String) : Except Fault Modifier :=
  readDocument Modifier.readJson text

def ValueKind.ofJsonText (text : String) : Except Fault ValueKind :=
  readDocument ValueKind.readJson text

def TargetPath.ofJsonText (text : String) : Except Fault TargetPath :=
  readDocument (fun _ => TargetPath.readJson) text

/-- The kind that a JSON value stands for: a word, or an object with the word as its only key,
beside null. -/
def ValueKind.ofJson : Json → Except ContentFault ValueKind
  | .string word => ofWord word
  | .object [(word, value)] =>
    match ofWord word with
    | .error fault => .error fault
    | .ok kind =>
      match value with
      | .null => .ok kind
      | other => .error (.wrongType (found other) .unit)
  | .object _ => .error .notSingleKey
  | other => .error (.wrongType (found other) .stringOrMap)

end Setters

import Setters.CommandLine.Session
import Setters.Proofs.FilePath
import Setters.Proofs.FileTree
import Setters.Proofs.Json.Places

/-!
# Schemas that a session holds

What an argument leads to: the standard input if it is a hyphen, else a file, the name of which
says in which format its schema is. `Session.Loads` says which schema this is and `Session.Refuses`
with what words there is none, both of the loaders for texts and of the files alone, and
`load_eq_ok_iff` and `refuses_iff` relate the way through the program to them.

The format and the stem of a file are told from one split of its name: what is behind the stem is
the suffix of a format, or the file is refused before anything is read (section 10.3 of the
specification).
-/

namespace Setters

variable {path : FilePath} {format : SchemaFormat} {stem text argument : String}
  {session : Session} {schema : Schema} {read : ReadFile}

/-! ### Formats -/

/-- What the names of files of a format end in. -/
def SchemaFormat.suffix : SchemaFormat → String
  | .json => ".json"
  | .toml => ".toml"

/-- Whether a path ends in a stem, which is not empty, with the suffix of a format. -/
def FilePath.IsSchemaFile (path : FilePath) (stem : String) (format : SchemaFormat) : Prop :=
  stem ≠ "" ∧ path.EndsIn (stem ++ format.suffix)

def SchemaFormat.extension : SchemaFormat → String
  | .json => "json"
  | .toml => "toml"

theorem SchemaFormat.suffix_eq (format : SchemaFormat) :
    format.suffix = "." ++ format.extension := by
  cases format <;> rfl

theorem SchemaFormat.dot_notMem (format : SchemaFormat) : '.' ∉ format.extension.toList := by
  cases format <;> decide

theorem SchemaFormat.ofPath?_eq_some_iff :
    ofPath? path = some format ↔ path.extension? = some format.extension := by
  rw [ofPath?]
  split <;> cases format <;> simp_all [extension]

theorem splitName_suffix (hstem : stem ≠ "") (format : SchemaFormat) :
    FilePath.splitName (stem ++ format.suffix) = (stem, some format.extension) := by
  rw [format.suffix_eq, ← String.append_assoc]
  exact FilePath.splitName_append hstem format.dot_notMem

theorem ofPath?_of_isSchemaFile (h : path.IsSchemaFile stem format) :
    SchemaFormat.ofPath? path = some format ∧ path.stem? = some stem := by
  have hname : path.fileName? = some (stem ++ format.suffix) :=
    FilePath.fileName?_eq_some_iff.mpr h.2
  have hsplit := splitName_suffix h.1 format
  constructor
  · rw [SchemaFormat.ofPath?_eq_some_iff, FilePath.extension?, hname, Option.bind_some, hsplit]
  · rw [FilePath.stem?, hname, Option.map_some, hsplit]

theorem exists_isSchemaFile_of_ofPath? (h : SchemaFormat.ofPath? path = some format) :
    ∃ stem, path.IsSchemaFile stem format := by
  rw [SchemaFormat.ofPath?_eq_some_iff, FilePath.extension?, Option.bind_eq_some_iff] at h
  obtain ⟨name, hname, hextension⟩ := h
  have hcut : FilePath.splitName name =
      ((FilePath.splitName name).1, some format.extension) := Prod.ext rfl hextension
  obtain ⟨hstem, hsplit⟩ := FilePath.eq_append_of_splitName hcut
  refine ⟨_, hstem, FilePath.fileName?_eq_some_iff.mp ?_⟩
  rw [format.suffix_eq, ← String.append_assoc, ← hsplit]
  exact hname

theorem ofPath?_eq_none_iff :
    SchemaFormat.ofPath? path = none ↔ ¬∃ stem format, path.IsSchemaFile stem format := by
  constructor
  · rintro hnone ⟨stem, format, hfile⟩
    rw [(ofPath?_of_isSchemaFile hfile).1] at hnone
    cases hnone
  · intro hfile
    cases hformat : SchemaFormat.ofPath? path with
    | none => rfl
    | some format =>
      obtain ⟨stem, hstem⟩ := exists_isSchemaFile_of_ofPath? hformat
      exact absurd ⟨stem, format, hstem⟩ hfile

/-! ### Files that can be read -/

/-- Whether a path leads to a file of a text from a directory. -/
def FileTree.HoldsText (tree : FileTree) (place : FilePlace) (path : FilePath) (text : String) :
    Prop :=
  ∃ target, tree.locate place path = .ok target ∧ tree.file? target = some (.text text)

theorem FileContent.read_eq_ok_iff {content : FileContent} :
    content.read = .ok text ↔ content = .text text := by
  cases content <;> simp [read]

theorem FileTree.read_eq_ok_iff {tree : FileTree} {place : FilePlace} :
    tree.read place path = .ok text ↔ tree.HoldsText place path text := by
  rw [FileTree.read, HoldsText]
  cases tree.locate place path with
  | error fault => simp
  | ok target =>
    cases hfind : tree.find? target with
    | none => simp [file?, hfind]
    | some entry =>
      cases entry with
      | directory => simp [file?, hfind]
      | file content => simp [file?, hfind, FileContent.read_eq_ok_iff]

theorem FileContent.ofBytes_eq_text_iff {bytes : ByteArray} :
    ofBytes bytes = .text text ↔ bytes = text.toUTF8 := by
  rw [ofBytes, String.fromUTF8?]
  by_cases hvalid : bytes.IsValidUTF8
  · simp only [dif_pos hvalid, FileContent.text.injEq]
    constructor
    · rintro rfl
      rfl
    · rintro rfl
      rfl
  · simp only [dif_neg hvalid, reduceCtorEq, false_iff]
    rintro rfl
    exact hvalid text.isValidUTF8

/-! ### Texts in a format -/

/-- Whether a text in a format is one of a schema. -/
inductive SchemaFormat.Reads : SchemaFormat → String → Schema → Prop where
  | json {text : String} {schema : Schema} :
      Schema.ofJsonText text = .ok schema → Reads .json text schema
  | toml {text : String} {schema : Schema} :
      Schema.ofTomlText text = .ok schema → Reads .toml text schema

theorem mapError_eq_ok_iff {α ε ε' : Type} {result : Except ε α} {f : ε → ε'} {a : α} :
    result.mapError f = .ok a ↔ result = .ok a := by
  cases result <;> simp [Except.mapError]

theorem mapError_eq_error_iff {α ε ε' : Type} {result : Except ε α} {f : ε → ε'} {fault : ε'} :
    result.mapError f = .error fault ↔ ∃ cause, result = .error cause ∧ f cause = fault := by
  cases result <;> simp [Except.mapError]

namespace Schema

theorem ofText_json (text : String) : ofText .json text = (ofJsonText text).mapError .json :=
  rfl

theorem ofText_toml (text : String) :
    ofText .toml text = (ofTomlText text).mapError (.toml text) :=
  rfl

theorem ofText_eq_ok_iff : ofText format text = .ok schema ↔ format.Reads text schema := by
  cases format with
  | json =>
    rw [ofText_json, mapError_eq_ok_iff]
    constructor
    · intro hread
      exact .json hread
    · rintro ⟨hread⟩
      exact hread
  | toml =>
    rw [ofText_toml, mapError_eq_ok_iff]
    constructor
    · intro hread
      exact .toml hread
    · rintro (_ | hread)
      exact hread

/-! ### Files -/

theorem load_eq_unsupported (h : ¬∃ stem format, path.IsSchemaFile stem format) (read : ReadFile) :
    load read path = .error (.unsupportedFormat path) := by
  rw [load, ofPath?_eq_none_iff.mpr h]

theorem load_eq_ofText (h : path.IsSchemaFile stem format) (hread : read path = .ok text) :
    load read path = ofText format text := by
  rw [load, (ofPath?_of_isSchemaFile h).1, hread]

theorem load_eq_unreadable (h : path.IsSchemaFile stem format) {fault : FileFault}
    (hread : read path = .error fault) :
    load read path = .error (.unreadable path fault) := by
  rw [load, (ofPath?_of_isSchemaFile h).1, hread]

theorem ofText_ne_unsupported (format : SchemaFormat) (text : String) (other : FilePath) :
    ofText format text ≠ .error (.unsupportedFormat other) := by
  intro h
  cases format with
  | json =>
    rw [ofText_json] at h
    obtain ⟨_, -, heq⟩ := mapError_eq_error_iff.mp h
    cases heq
  | toml =>
    rw [ofText_toml] at h
    obtain ⟨_, -, heq⟩ := mapError_eq_error_iff.mp h
    cases heq

theorem load_eq_unsupported_iff (read : ReadFile) {other : FilePath} :
    load read path = .error (.unsupportedFormat other) ↔
      other = path ∧ ¬∃ stem format, path.IsSchemaFile stem format := by
  constructor
  · intro h
    by_cases hfile : ∃ stem format, path.IsSchemaFile stem format
    · obtain ⟨stem, format, hfile⟩ := hfile
      cases hread : read path with
      | ok text =>
        rw [load_eq_ofText hfile hread] at h
        exact absurd h (ofText_ne_unsupported format text other)
      | error fault =>
        rw [load_eq_unreadable hfile hread] at h
        cases h
    · rw [load_eq_unsupported hfile] at h
      have hfault := Except.error.inj h
      exact ⟨(LoadFault.unsupportedFormat.inj hfault).symm, hfile⟩
  · rintro ⟨rfl, hfile⟩
    exact load_eq_unsupported hfile read

end Schema

/-! ### What an argument leads to -/

/-- Whether an argument leads to a text in a format: a hyphen to the standard input, which is
JSON, and everything else to a file. -/
inductive Session.Offers (session : Session) : String → SchemaFormat → String → Prop where
  | input {text : String} : session.input = .text text → session.Offers "-" .json text
  | file {argument stem text : String} {format : SchemaFormat} :
      (FilePath.mk argument).IsSchemaFile stem format →
      session.files.HoldsText session.place ⟨argument⟩ text → session.Offers argument format text

/-- Whether an argument leads to a schema. -/
def Session.Loads (session : Session) (argument : String) (schema : Schema) : Prop :=
  ∃ format text, session.Offers argument format text ∧ format.Reads text schema

/-- Whether there is no schema where an argument leads to, and what is told of that. -/
inductive Session.Refuses (session : Session) (argument : String) : String → Prop where
  | notText {bytes : List UInt8} : argument = "-" → session.input = .binary bytes →
      session.Refuses argument "stream did not contain valid UTF-8"
  | noFormat : argument ≠ "-" → (¬∃ stem format, (FilePath.mk argument).IsSchemaFile stem format) →
      session.Refuses argument
        ("unsupported schema format: " ++ argument ++ " (expected .json or .toml)")
  | unread {stem : String} {format : SchemaFormat} {fault : FileFault} :
      (FilePath.mk argument).IsSchemaFile stem format →
      session.files.read session.place ⟨argument⟩ = .error fault →
      session.Refuses argument ("failed to read " ++ argument ++ ": " ++ fault.message)
  | json {text : String} {fault : Json.Fault} {place : Json.Place} :
      session.Offers argument .json text → Schema.ofJsonText text = .error fault →
      fault.place? = some place →
      session.Refuses argument ("invalid JSON schema: " ++ (fault.message ++
        (" at line " ++ toString place.line ++ " column " ++ toString place.column)))
  | toml {text : String} {fault : Toml.Fault} :
      session.Offers argument .toml text → Schema.ofTomlText text = .error fault →
      session.Refuses argument ("invalid TOML schema: " ++ fault.report text)

theorem ne_hyphen_of_isSchemaFile (h : (FilePath.mk argument).IsSchemaFile stem format) :
    argument ≠ "-" := by
  rintro rfl
  have hformat := (ofPath?_of_isSchemaFile h).1
  have hnone : SchemaFormat.ofPath? ⟨"-"⟩ = none := by decide
  rw [hnone] at hformat
  cases hformat

def Session.load (session : Session) (argument : String) : Except LoadFault Schema :=
  (SchemaSource.ofArgument argument).load (session.files.read session.place) session.input

theorem SchemaSource.ofArgument_hyphen : ofArgument "-" = .input :=
  rfl

theorem SchemaSource.ofArgument_of_ne (h : argument ≠ "-") :
    ofArgument argument = .file ⟨argument⟩ :=
  if_neg h

/-- The standard input is read as JSON, whatever files there are. -/
theorem SchemaSource.load_input (read : ReadFile) (text : String) :
    load read (.text text) .input = (Schema.ofJsonText text).mapError .json :=
  rfl

theorem SchemaSource.load_binary (read : ReadFile) (bytes : List UInt8) :
    load read (.binary bytes) .input = .error .notText :=
  rfl

theorem load_of_offers (h : session.Offers argument format text) :
    session.load argument = Schema.ofText format text := by
  cases h with
  | input hinput =>
    rw [Session.load, SchemaSource.ofArgument_hyphen, hinput, Schema.ofText_json]
    exact SchemaSource.load_input _ text
  | file hfile htext =>
    rw [Session.load, SchemaSource.ofArgument_of_ne (ne_hyphen_of_isSchemaFile hfile)]
    exact Schema.load_eq_ofText hfile (FileTree.read_eq_ok_iff.mpr htext)

/-- What is loaded is what the text that the argument leads to is read as, or the argument leads to
no text. -/
theorem load_cases (session : Session) (argument : String) :
    (∃ format text, session.Offers argument format text) ∨
      ∃ fault, session.load argument = .error fault ∧ session.Refuses argument fault.report := by
  by_cases hinput : argument = "-"
  · subst hinput
    cases htext : session.input with
    | text text => exact .inl ⟨.json, text, .input htext⟩
    | binary bytes =>
      refine .inr ⟨.notText, ?_, .notText rfl htext⟩
      rw [Session.load, SchemaSource.ofArgument_hyphen, htext]
      exact SchemaSource.load_binary _ bytes
  · have hload : session.load argument =
        Schema.load (session.files.read session.place) ⟨argument⟩ := by
      rw [Session.load, SchemaSource.ofArgument_of_ne hinput, SchemaSource.load]
    by_cases hfile : ∃ stem format, (FilePath.mk argument).IsSchemaFile stem format
    · obtain ⟨stem, format, hfile⟩ := hfile
      cases hread : session.files.read session.place ⟨argument⟩ with
      | ok text => exact .inl ⟨format, text, .file hfile (FileTree.read_eq_ok_iff.mp hread)⟩
      | error fault =>
        refine .inr ⟨_, hload.trans (Schema.load_eq_unreadable hfile hread), .unread hfile hread⟩
    · exact .inr ⟨_, hload.trans (Schema.load_eq_unsupported hfile _), .noFormat hinput hfile⟩

theorem load_eq_ok_iff : session.load argument = .ok schema ↔ session.Loads argument schema := by
  constructor
  · intro h
    obtain ⟨format, text, hoffers⟩ | ⟨fault, hload, -⟩ := load_cases session argument
    · rw [load_of_offers hoffers] at h
      exact ⟨format, text, hoffers, Schema.ofText_eq_ok_iff.mp h⟩
    · rw [hload] at h
      cases h
  · rintro ⟨format, text, hoffers, hreads⟩
    rw [load_of_offers hoffers]
    exact Schema.ofText_eq_ok_iff.mpr hreads

/-! ### Faults -/

theorem Record.readJson_placed {σ κ : Type} (record : Record σ κ) (entry : σ → κ → Json.Reader σ) :
    Json.Placed (record.readJson entry) := by
  intro cs halt h
  rw [readJson] at h
  split at h
  · exact Json.placed_of_settle h
  · exact Json.placed_of_settle h
  · exact Json.placed_of_mismatch h

theorem Record.readShut_placed {σ κ α : Type} (record : Record σ κ) :
    Json.Placed (record.readShut : Json.Reader α) := by
  intro cs halt h
  rw [readShut] at h
  split at h
  · obtain rfl := Except.error.inj h
    trivial
  · obtain rfl := Except.error.inj h
    trivial
  · exact Json.placed_of_mismatch h

theorem Schema.readJson_placed (room : Nat) : Json.Placed (Schema.readJson room) := by
  cases room with
  | zero => exact schemaRecord.readShut_placed
  | succ room => exact (schemaRecord.readJson_placed _).map SchemaDraft.resolve

/-- A fault that a schema is refused for has a place, for a schema is closed before it is
refused. -/
theorem exists_place_of_ofJsonText {fault : Json.Fault}
    (h : Schema.ofJsonText text = .error fault) : ∃ place, fault.place? = some place := by
  have hplaced := Schema.readJson_placed Json.maxDepth
  obtain ⟨left, hplace⟩ := @Json.exists_place_of_readDocument _ text Schema.readJson hplaced fault h
  exact ⟨_, hplace⟩

theorem report_json {fault : Json.Fault} {place : Json.Place} (h : fault.place? = some place) :
    (LoadFault.json fault).report = "invalid JSON schema: " ++ (fault.message ++
      (" at line " ++ toString place.line ++ " column " ++ toString place.column)) :=
  congrArg ("invalid JSON schema: " ++ ·) (Json.Fault.report_of_place h)

theorem refuses_of_ofText {fault : LoadFault} (hoffers : session.Offers argument format text)
    (h : Schema.ofText format text = .error fault) : session.Refuses argument fault.report := by
  cases format with
  | json =>
    rw [Schema.ofText_json] at h
    obtain ⟨cause, hread, rfl⟩ := mapError_eq_error_iff.mp h
    obtain ⟨place, hplace⟩ := exists_place_of_ofJsonText hread
    rw [report_json hplace]
    exact .json hoffers hread hplace
  | toml =>
    rw [Schema.ofText_toml] at h
    obtain ⟨cause, hread, rfl⟩ := mapError_eq_error_iff.mp h
    exact .toml hoffers hread

/-- What is refused is refused with the words of the fault. -/
theorem refuses_iff {word : String} :
    session.Refuses argument word ↔
      ∃ fault, session.load argument = .error fault ∧ fault.report = word := by
  constructor
  · intro h
    cases h with
    | @notText bytes hargument hinput =>
      refine ⟨.notText, ?_, rfl⟩
      rw [Session.load, hargument, SchemaSource.ofArgument_hyphen, hinput]
      exact SchemaSource.load_binary _ bytes
    | noFormat hne hfile =>
      refine ⟨.unsupportedFormat ⟨argument⟩, ?_, rfl⟩
      rw [Session.load, SchemaSource.ofArgument_of_ne hne]
      exact Schema.load_eq_unsupported hfile _
    | @unread stem format fault hfile hread =>
      refine ⟨.unreadable ⟨argument⟩ fault, ?_, rfl⟩
      rw [Session.load, SchemaSource.ofArgument_of_ne (ne_hyphen_of_isSchemaFile hfile)]
      exact Schema.load_eq_unreadable hfile hread
    | @json text fault place hoffers hread hplace =>
      refine ⟨.json fault, ?_, report_json hplace⟩
      rw [load_of_offers hoffers, Schema.ofText_json, hread]
      rfl
    | @toml text fault hoffers hread =>
      refine ⟨.toml text fault, ?_, rfl⟩
      rw [load_of_offers hoffers, Schema.ofText_toml, hread]
      rfl
  · rintro ⟨fault, hload, rfl⟩
    obtain ⟨format, text, hoffers⟩ | ⟨other, hother, hrefuses⟩ := load_cases session argument
    · rw [load_of_offers hoffers] at hload
      exact refuses_of_ofText hoffers hload
    · rw [hother] at hload
      obtain rfl := Except.error.inj hload
      exact hrefuses

end Setters

import Setters.Compilation
import Setters.Proofs.Document.Toml
import Setters.Proofs.Schema.Judging
import Setters.Proofs.Schema.Reordering

/-!
# One tree in two formats

A tree may be spelled in JSON and in TOML, in either one with the entries of its tables in an order
of its own. The two loaders then agree on it, as `loaders_agree` says: both refuse it, or both make
the same schema of it.

The types of fields have to be no tables: a table that stands for a kind is spelled differently in
the two formats.
-/

namespace Setters

open Json

variable {tree : Document} {text : String}

namespace Document

/-- Whether a JSON text has the tree as its value, nested no deeper than is read. -/
def IsJsonText (tree : Document) (text : String) : Prop :=
  ∃ document : Written, document.IsDocument text ∧ document.depth ≤ maxDepth ∧
    ∃ v, document.value? = some v ∧ ∃ read, v.document? = some read ∧ tree.Reorders read

/-- Whether a TOML text can be parsed, and its document is the tree. -/
def IsTomlText (tree : Document) (text : String) : Prop :=
  ∃ root, Toml.parse text = .ok root ∧
    ∃ read, (Toml.Item.table root).document? = some read ∧ tree.Reorders read

end Document

/-! ### From a text to the tree -/

/-- Values that are written differently are decoded alike, as long as there is room for both. -/
theorem Schema.decode_eq_of_value? {value value' : Written} {room room' : Nat} {v : Json}
    (hvalue : value.value? = some v) (hvalue' : value'.value? = some v) (hdepth : v.depth ≤ room)
    (hdepth' : v.depth ≤ room') : Schema.decode room value = Schema.decode room' value' := by
  rw [Written.depth_of_value? value v hvalue] at hdepth
  rw [Written.depth_of_value? value' v hvalue'] at hdepth'
  apply Option.ext
  intro schema
  rw [Schema.decode_judges room value schema, Schema.decode_judges room' value' schema, hvalue,
    hvalue']
  simp only [hdepth, hdepth', true_and]

/-- A JSON text of a tree is loaded as the tree is decoded. -/
theorem Document.IsJsonText.ofJsonText_toOption (h : tree.IsJsonText text)
    (hkeys : tree.DistinctKeys) {room : Nat} (hroom : maxDepth ≤ room) :
    (Schema.ofJsonText text).toOption = Schema.decode room tree.written := by
  obtain ⟨document, hdocument, hdepth, v, hvalue, read, hread, hreorders⟩ := h
  have hdepthValue := Written.depth_of_value? document v hvalue
  have hwritten := Document.value?_written v read hread
  calc (Schema.ofJsonText text).toOption
      = Schema.decode maxDepth document := Schema.ofJsonText_toOption hdocument
    _ = Schema.decode room read.written :=
        Schema.decode_eq_of_value? hvalue hwritten (by omega) (by omega)
    _ = Schema.decode room tree.written :=
        (Schema.decode_orderBlind room _ _ (Reorders.written tree read hreorders)
          (DistinctKeys.written tree hkeys)).symm

/-- A TOML text of a tree is loaded as the tree is decoded, given enough room. -/
theorem Document.IsTomlText.exists_ofTomlText_toOption (h : tree.IsTomlText text)
    (hkeys : tree.DistinctKeys) (htypes : tree.PlainTypes) :
    ∃ depth, ∀ room, depth ≤ room →
      (Schema.ofTomlText text).toOption = Schema.decode room tree.written := by
  obtain ⟨root, hparse, read, hread, hreorders⟩ := h
  refine ⟨read.written.depth, fun room hroom => ?_⟩
  calc (Schema.ofTomlText text).toOption
      = (Schema.ofToml root).toOption := by
        simp only [Schema.ofTomlText, hparse]
        cases Schema.ofToml root <;> rfl
    _ = Schema.decode room read.written :=
        Schema.ofToml_toOption hread hroom (htypes.of_reorders hreorders)
    _ = Schema.decode room tree.written :=
        (Schema.decode_orderBlind room _ _ (Reorders.written tree read hreorders)
          (DistinctKeys.written tree hkeys)).symm

/-! ### The loaders -/

/-- The loaders agree: texts of one tree in the two formats are both refused, or both loaded as
one schema, which then compiles alike. -/
theorem loaders_agree {json toml : String} (hkeys : tree.DistinctKeys) (htypes : tree.PlainTypes)
    (hjson : tree.IsJsonText json) (htoml : tree.IsTomlText toml) :
    (∀ schema, Schema.ofJsonText json = .ok schema ↔ Schema.ofTomlText toml = .ok schema) ∧
      ∀ schema schema', Schema.ofJsonText json = .ok schema →
        Schema.ofTomlText toml = .ok schema' →
          schema = schema' ∧ ∀ name, schema.compile name = schema'.compile name := by
  obtain ⟨depth, hread⟩ := htoml.exists_ofTomlText_toOption hkeys htypes
  have hsame : (Schema.ofJsonText json).toOption = (Schema.ofTomlText toml).toOption := by
    rw [hjson.ofJsonText_toOption hkeys (Nat.le_max_left maxDepth depth),
      hread _ (Nat.le_max_right maxDepth depth)]
  have hiff : ∀ schema,
      Schema.ofJsonText json = .ok schema ↔ Schema.ofTomlText toml = .ok schema := by
    intro schema
    rw [← toOption_eq_some_iff, hsame, toOption_eq_some_iff]
  refine ⟨hiff, fun schema schema' hschema hschema' => ?_⟩
  obtain rfl : schema = schema' :=
    Except.ok.inj (((hiff schema).mp hschema).symm.trans hschema')
  exact ⟨rfl, fun name => rfl⟩

def imageDocument : Document :=
  .table [("parameter", .text "image"), ("type", .text "string"), ("target", .text "spec.image")]

def podDocument : Document :=
  .table
    [("help", .text "A pod."),
     ("fields", .table [("spec", .table [("fields", .table [("image", imageDocument)])])])]

/-- The pod as a JSON value, its help behind its fields. -/
def podJson : Json :=
  .object
    [("fields", .object [("spec", .object [("fields", .object [("image", .object
      [("parameter", .string "image"), ("type", .string "string"),
        ("target", .string "spec.image")])])])]),
     ("help", .string "A pod.")]

/-- The pod in TOML, with a header, dotted keys and a table between braces. -/
def podToml : String :=
  "help = 'A pod.'\n[fields.spec]\nfields.image = " ++
    "\x7b parameter = \"image\", type = \"string\", target = \"spec.image\" \x7d\n"

theorem isJsonText_podJson : podDocument.IsJsonText (compact podJson) := by
  have hfree : podJson.NumberFree := by simp [podJson, NumberFree, NumberFreeMembers]
  obtain ⟨document, hvalue, hdocument⟩ := exists_isDocument_of_prints hfree (.inl rfl)
  have hdepth : podJson.depth ≤ maxDepth := by decide
  rw [Written.depth_of_value? document podJson hvalue] at hdepth
  refine ⟨document, hdocument, hdepth, podJson, hvalue, _, rfl, ?_⟩
  exact ⟨_, .swap _ _ _, Document.ReordersEntries.refl _⟩

theorem isTomlText_podToml : podDocument.IsTomlText podToml := by
  have hread : ((Toml.parse podToml).toOption.bind fun root =>
      (Toml.Item.table root).document?) = some podDocument := by
    decide +kernel
  obtain ⟨root, hroot, hdocument⟩ := Option.bind_eq_some_iff.mp hread
  exact ⟨root, toOption_eq_some_iff.mp hroot, podDocument, hdocument, .refl podDocument⟩

theorem distinctKeys_podDocument : podDocument.DistinctKeys := by
  simp [podDocument, imageDocument, Document.DistinctKeys, Document.DistinctKeysEntries]

theorem plainTypes_podDocument : podDocument.PlainTypes := by
  have himage : imageDocument.PlainTypes ∧ ¬imageDocument.TypeIsTable := by
    rw [Document.plainTypes_iff]
    simp [imageDocument]
  have hspec : (Document.table [("fields", .table [("image", imageDocument)])]).PlainTypes := by
    rw [Document.plainTypes_iff]
    simp [himage]
  rw [Document.plainTypes_iff]
  simp [podDocument, hspec]

theorem loaders_agree_podDocument :
    ∃ schema, Schema.ofTomlText podToml = .ok schema ∧
      Schema.ofJsonText (compact podJson) = .ok schema := by
  have hagree := loaders_agree distinctKeys_podDocument plainTypes_podDocument isJsonText_podJson
    isTomlText_podToml
  have hloads : (Schema.ofTomlText podToml).isOk = true := by decide +kernel
  cases htoml : Schema.ofTomlText podToml with
  | error fault =>
    rw [htoml] at hloads
    cases hloads
  | ok schema => exact ⟨schema, rfl, (hagree.1 schema).mpr htoml⟩

end Setters

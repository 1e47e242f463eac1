import Setters.Proofs.Compilation.Listing
import Setters.Proofs.Schema.Assembly
import Setters.Proofs.Schema.Reordering

/-!
# The order of fields

Compilation does not depend on the order of fields, wherever an order comes in: the order in which
fields are added to a schema, that in which the maps of fields hand them out, and that of the
members in a document.
-/

namespace Setters

open Json

/-- Whether two schemas compile alike under every name, however each one's fields are listed. -/
def Schema.CompilesAlike (schema schema' : Schema) : Prop :=
  ∀ name, schema.compile name = schema'.compile name ∧
    ∀ entries entries', schema.ListedBy entries → schema'.ListedBy entries' →
      compileListed name schema.help entries = compileListed name schema'.help entries'

theorem Schema.compilesAlike_of_eq {schema schema' : Schema} (h : schema = schema') :
    schema.CompilesAlike schema' := by
  subst h
  intro name
  refine ⟨rfl, fun entries entries' hlists hlists' => ?_⟩
  rw [compileListed_eq hlists, compileListed_eq hlists']

/-- Documents of reordered values are both refused, or both read as one schema. -/
theorem ofJsonText_toOption_of_reorders {value value' : Written} (h : value.Reorders value')
    (hkeys : value.DistinctKeys) {text text' : String} (hdoc : value.IsDocument text)
    (hdoc' : value'.IsDocument text') :
    (Schema.ofJsonText text).toOption = (Schema.ofJsonText text').toOption := by
  rw [Schema.ofJsonText_toOption hdoc, Schema.ofJsonText_toOption hdoc',
    Schema.decode_orderBlind maxDepth value value' h hkeys]

/-- Nothing that is compiled depends on the order of fields: schemas that are put together with
the same last value under every name compile alike, and so do the schemas of two documents that
differ in the order of members alone, of which both are read or neither. -/
theorem compile_independent_of_order :
    (∀ help calls calls', Assembly.Alike (.group help calls) (.group help calls') →
      (Assembly.addTo ⟨help, .empty⟩ calls).CompilesAlike
        (Assembly.addTo ⟨help, .empty⟩ calls')) ∧
    ∀ value value' : Written, value.Reorders value' → value.DistinctKeys →
      ∀ text text', value.IsDocument text → value'.IsDocument text' →
        (∀ schema, Schema.ofJsonText text = .ok schema ↔ Schema.ofJsonText text' = .ok schema) ∧
        ∀ schema schema', Schema.ofJsonText text = .ok schema →
          Schema.ofJsonText text' = .ok schema' → schema.CompilesAlike schema' := by
  refine ⟨fun help calls calls' h =>
    Schema.compilesAlike_of_eq (Assembly.addTo_eq_of_alike h), ?_⟩
  intro value value' h hkeys text text' hdoc hdoc'
  have hread := ofJsonText_toOption_of_reorders h hkeys hdoc hdoc'
  have hok : ∀ schema, Schema.ofJsonText text = .ok schema ↔
      Schema.ofJsonText text' = .ok schema := by
    intro schema
    rw [← toOption_eq_some_iff, hread, toOption_eq_some_iff]
  refine ⟨hok, ?_⟩
  intro schema schema' hschema hschema'
  have hsame : schema = schema' := Except.ok.inj (((hok schema).mp hschema).symm.trans hschema')
  exact Schema.compilesAlike_of_eq hsame

def plainPieces (text : String) : List Piece :=
  text.toList.filterMap fun c =>
    if h : c ≠ '"' ∧ c ≠ '\\' ∧ 0x20 ≤ c.toNat then some (.plain c h) else none

def podValue : Written :=
  .object [(plainPieces "help", .null), (plainPieces "fields", .object [
    (plainPieces "image", .object [
      (plainPieces "parameter", .string (plainPieces "tag")),
      (plainPieces "type", .string (plainPieces "string")),
      (plainPieces "target", .string (plainPieces "image"))])])]

def podShuffled : Written :=
  .object [(plainPieces "fields", .object [
    (plainPieces "image", .object [
      (plainPieces "type", .string (plainPieces "string")),
      (plainPieces "parameter", .string (plainPieces "tag")),
      (plainPieces "target", .string (plainPieces "image"))])]),
    (plainPieces "help", .null)]

theorem podValue_reorders : podValue.Reorders podShuffled := by
  refine ⟨_, List.Perm.swap _ _ _, rfl, trivial, rfl, ?_, trivial⟩
  refine ⟨_, List.Perm.refl _, rfl, ?_, trivial⟩
  exact ⟨_, List.Perm.swap _ _ _, rfl, rfl, rfl, rfl, rfl, rfl, trivial⟩

theorem keysDiffer_of_ne {key key' : List Piece} (h : textOf key ≠ textOf key') :
    KeysDiffer key key' := by
  intro text hkey hkey'
  exact h (hkey.trans hkey'.symm)

theorem podValue_distinctKeys : podValue.DistinctKeys := by
  have hroot : KeysDiffer (plainPieces "help") (plainPieces "fields") :=
    keysDiffer_of_ne (by decide)
  have htype : KeysDiffer (plainPieces "parameter") (plainPieces "type") :=
    keysDiffer_of_ne (by decide)
  have htarget : KeysDiffer (plainPieces "parameter") (plainPieces "target") :=
    keysDiffer_of_ne (by decide)
  have hlast : KeysDiffer (plainPieces "type") (plainPieces "target") :=
    keysDiffer_of_ne (by decide)
  simp [podValue, Written.DistinctKeys, Written.DistinctKeysMembers, hroot, htype, htarget, hlast]

def imageModifier (kind : ValueKind) : Assembly :=
  .modifier ⟨"image", kind, ⟨[], ⟨"image", by decide⟩⟩⟩

/-- Calls that add a group and replace a field. -/
def podCalls : List (String × Assembly) :=
  [("image", imageModifier .object),
    ("spec", .group none [("tag", imageModifier .string), ("name", imageModifier .array)]),
    ("image", imageModifier .string)]

/-- Calls that leave the same values, put together in another order. -/
def podCallsShuffled : List (String × Assembly) :=
  [("image", imageModifier .string),
    ("spec", .group none [("name", imageModifier .array), ("tag", imageModifier .string)])]

open Assembly in
theorem podCalls_alike : Alike (.group none podCalls) (.group none podCallsShuffled) := by
  have himage (kind : ValueKind) : Alike (imageModifier kind) (imageModifier kind) := .modifier _
  have hspec : Alike
      (.group none [("tag", imageModifier .string), ("name", imageModifier .array)])
      (.group none [("name", imageModifier .array), ("tag", imageModifier .string)]) := by
    refine .group fun name => ?_
    simp only [lastCall_cons, lastCall_nil, Option.none_or]
    by_cases htag : name = "tag"
    · simpa [htag] using himage .string
    · by_cases hname : name = "name"
      · simpa [hname] using himage .array
      · simp [htag, hname]
  refine .group fun name => ?_
  simp only [podCalls, podCallsShuffled, lastCall_cons, lastCall_nil, Option.none_or]
  by_cases hfield : name = "image"
  · simpa [hfield] using himage .string
  · by_cases hname : name = "spec"
    · simpa [hname] using hspec
    · simp [hfield, hname]

def podText : String :=
  "\x7b\"help\":null,\"fields\":\x7b\"image\":\x7b\"parameter\":\"tag\",\"type\":\"string\"," ++
    "\"target\":\"image\"\x7d\x7d\x7d"

def podTextShuffled : String :=
  "\x7b\"fields\":\x7b\"image\":\x7b\"type\":\"string\",\"parameter\":\"tag\"," ++
    "\"target\":\"image\"\x7d\x7d,\"help\":null\x7d"

theorem podText_isDocument : podValue.IsDocument podText := by
  have htext : podText = String.ofList podValue.compact := by decide
  exact htext ▸ Written.isDocument_compact podValue

theorem podTextShuffled_isDocument : podShuffled.IsDocument podTextShuffled := by
  have htext : podTextShuffled = String.ofList podShuffled.compact := by decide
  exact htext ▸ Written.isDocument_compact podShuffled

/-- Two ways to put together a schema compile alike, and two documents are read as one schema. -/
theorem pod_independent_of_order :
    (Assembly.addTo ⟨none, .empty⟩ podCalls).CompilesAlike
      (Assembly.addTo ⟨none, .empty⟩ podCallsShuffled) ∧
    (Schema.ofJsonText podText).toOption.isSome ∧
    ∀ schema, Schema.ofJsonText podText = .ok schema ↔
      Schema.ofJsonText podTextShuffled = .ok schema := by
  refine ⟨compile_independent_of_order.1 none podCalls podCallsShuffled podCalls_alike, ?_, ?_⟩
  · decide +kernel
  · exact (compile_independent_of_order.2 podValue podShuffled podValue_reorders
      podValue_distinctKeys podText podTextShuffled podText_isDocument
      podTextShuffled_isDocument).1

end Setters

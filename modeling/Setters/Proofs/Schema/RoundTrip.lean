import Setters.Proofs.Compilation.Listing
import Setters.Proofs.Json.Printed
import Setters.Proofs.Schema.Judging
import Setters.Proofs.Schema.Limits
import Setters.Proofs.TargetPath
import Setters.Schema.JsonWriter

/-!
# Schemas are read back from their texts

`Schema.ofJsonText_of_writtenAs`: what a schema is written as is read as that schema, whatever
order the fields of its groups come in, up to the limit on nesting; beyond it the text is refused
for nesting too deep and for nothing else.

A written field is a field as the grammar has it, and so is found by decoding wherever there is
room. At the limit the reader does what it does with enough room, or refuses the nesting.
-/

namespace Setters

open Json

/-! ### Written forms -/

/-- Whether a value is a schema with the members of each object of fields in some order. -/
def Schema.WrittenAs (schema : Schema) (form : Json) : Prop :=
  ∃ entries, schema.ListedBy entries ∧ form = groupJson schema.help (Field.toJsonAll entries)

theorem Schema.writtenAs_toJson (schema : Schema) : schema.WrittenAs schema.toJson :=
  ⟨schema.fields.toList, Schema.listedBy_of_perm (List.Perm.refl _), rfl⟩

theorem numberFree_groupJson {help : Option String} {members : List (String × Json)}
    (h : NumberFreeMembers members) : (groupJson help members).NumberFree := by
  cases help with
  | none => exact ⟨h, trivial⟩
  | some help => exact ⟨trivial, h, trivial⟩

mutual

theorem Field.numberFree_toJson : (field : Field) → field.toJson.NumberFree
  | .modifier _ => ⟨trivial, trivial, trivial, trivial⟩
  | .group _ fields => numberFree_groupJson (numberFree_toJsonAll fields)

theorem Field.numberFree_toJsonAll :
    (fields : List (String × Field)) → NumberFreeMembers (toJsonAll fields)
  | [] => trivial
  | (_, field) :: rest => ⟨numberFree_toJson field, numberFree_toJsonAll rest⟩

end

/-! ### Written forms are in the grammar -/

/-- A group is written with its help, when it has one, and its fields. -/
theorem exists_entries_groupJson (help : Option String) (members : List (String × Json))
    (words : List String) (least : Nat) (hhelp : "help" ∈ words) (hfields : "fields" ∈ words) :
    ∃ entries, HasEntries words least (groupJson help members) entries ∧
      IsHelp (entries "help") help ∧ entries "fields" = some (.object members) ∧
      entries "parameter" = none ∧ entries "type" = none ∧ entries "target" = none := by
  cases help with
  | none =>
    have known : ∀ word ∈ ["fields"], word ∈ words := by
      intro word hmem
      rwa [List.mem_singleton.mp hmem]
    exact ⟨_, .table (List.nodup_singleton _) known, .absent (.inl rfl), rfl, rfl, rfl, rfl⟩
  | some help =>
    have distinct : ["help", "fields"].Nodup := by decide
    have known : ∀ word ∈ ["help", "fields"], word ∈ words :=
      List.forall_mem_cons.mpr ⟨hhelp, List.forall_mem_cons.mpr ⟨hfields, List.forall_mem_nil _⟩⟩
    exact ⟨_, .table distinct known, .text help, rfl, rfl, rfl, rfl⟩

theorem Modifier.isField_toJson (m : Modifier) : IsField m.toJson m.toField := by
  have distinct : ["parameter", "type", "target"].Nodup := by decide
  have known : ∀ word ∈ ["parameter", "type", "target"],
      word ∈ ["help", "fields", "parameter", "type", "target"] := by decide
  have hentries : HasEntries ["help", "fields", "parameter", "type", "target"] 5 m.toJson _ :=
    .table distinct known
  exact .modifier hentries (.inl rfl) (.inl rfl) rfl rfl (.word m.kind) rfl m.target.parse_text

/-- Entries that are written hold the fields they list. -/
theorem Fields.holdsLast_of_perm {fields : Fields} {named : List (String × OrderedField)}
    (h : (named.map fun entry => (entry.1, entry.2.val)).Perm fields.toList) :
    fields.HoldsLast named := by
  intro name
  have hperm : (named.reverse.map fun entry => (entry.1, entry.2.val)).Perm fields.toList := by
    rw [List.map_reverse]
    exact (List.reverse_perm _).trans h
  have distinct := (hperm.map Prod.fst).nodup_iff.mpr (fields.ascending.imp fun hlt => ne_of_lt hlt)
  rw [← Field.lookup_eq_of_perm hperm distinct name, Field.lookup_map]

mutual

theorem Field.isField_of_lists : (entry field : Field) → (ordered : field.Ordered) →
    Lists entry field → IsField entry.toJson ⟨field, ordered⟩
  | .modifier m, .modifier m', _, h => by
    obtain rfl : m = m' := h
    exact m.isField_toJson
  | .group help entries, .group help' fields, .group asc inner, h => by
    obtain ⟨rfl, shuffled, hperm, heach⟩ := h
    have hshuffled : ∀ e ∈ shuffled, e.2.Ordered := fun e hmem => inner e (hperm.mem_iff.mp hmem)
    obtain ⟨named, hnamed, rfl⟩ := areFields_of_listsEach entries shuffled hshuffled heach
    obtain ⟨_, hentries, hhelp, hmembers, hparameter, htype, htarget⟩ :=
      exists_entries_groupJson help (toJsonAll entries) fieldRecord.words 5 (by decide) (by decide)
    let kept : Fields := ⟨fields, .group asc inner⟩
    have hfields : IsFields (.object (toJsonAll entries)) kept :=
      .mk hnamed (Fields.holdsLast_of_perm hperm)
    exact .group hentries hhelp hmembers hfields (.inl hparameter) (.inl htype) (.inl htarget)
  | .modifier _, .group .., _, h => h.elim
  | .group .., .modifier _, _, h => h.elim

theorem Field.areFields_of_listsEach : (entries fields : List (String × Field)) →
    (∀ e ∈ fields, e.2.Ordered) → ListsEach entries fields →
      ∃ named : List (String × OrderedField), AreFields (toJsonAll entries) named ∧
        (named.map fun entry => (entry.1, entry.2.val)) = fields
  | [], [], _, _ => ⟨[], .nil, rfl⟩
  | (name, entry) :: rest, (name', field) :: rest', inner, h => by
    obtain ⟨rfl, hfield, hrest⟩ := h
    have hinner := List.forall_mem_cons.mp inner
    have hisField := isField_of_lists entry field hinner.1 hfield
    obtain ⟨named, hnamed, rfl⟩ := areFields_of_listsEach rest rest' hinner.2 hrest
    exact ⟨(name, ⟨field, hinner.1⟩) :: named, .cons hisField hnamed, rfl⟩
  | [], _ :: _, _, h => h.elim
  | _ :: _, [], _, h => h.elim

end

namespace Schema

theorem WrittenAs.numberFree {schema : Schema} {form : Json} (h : schema.WrittenAs form) :
    form.NumberFree := by
  obtain ⟨entries, -, rfl⟩ := h
  exact numberFree_groupJson (Field.numberFree_toJsonAll entries)

theorem WrittenAs.isSchema {schema : Schema} {form : Json} (h : schema.WrittenAs form) :
    IsSchema form schema := by
  obtain ⟨entries, ⟨shuffled, hperm, heach⟩, rfl⟩ := h
  have hshuffled : ∀ e ∈ shuffled, e.2.Ordered := by
    intro e hmem
    cases schema.fields.ordered with
    | group asc inner => exact inner e (hperm.mem_iff.mp hmem)
  obtain ⟨named, hnamed, rfl⟩ := Field.areFields_of_listsEach entries shuffled hshuffled heach
  obtain ⟨_, hentries, hhelp, hmembers, -⟩ :=
    exists_entries_groupJson schema.help (Field.toJsonAll entries) schemaRecord.words 0
      (by decide) (by decide)
  have hfields : IsFields (.object (Field.toJsonAll entries)) schema.fields :=
    .mk hnamed (Fields.holdsLast_of_perm hperm)
  exact .full hentries hhelp hmembers hfields

/-- What a schema is written as is read as that schema where the brackets nest at most as deep as
there are levels. -/
theorem readDocument_eq_ok_iff {schema : Schema} {form : Json} (hform : schema.WrittenAs form)
    {text : String} (hprints : Prints form text) (room : Nat) :
    readDocument (fun _ => Schema.readJson room) text = .ok schema ↔ form.depth ≤ room := by
  obtain ⟨document, hvalue, hdocument⟩ := exists_isDocument_of_prints hform.numberFree hprints
  have hdepth := Written.depth_of_value? document form hvalue
  have hdecodes : (readDocument (fun _ => Schema.readJson room) text).toOption =
      Schema.decode room document :=
    readDocument_toOption (readJson_decodes room) hdocument
  rw [← toOption_eq_some_iff, hdecodes, decode_judges room document schema, hdepth]
  constructor
  · rintro ⟨hle, -⟩
    exact hle
  · intro hle
    exact ⟨hle, form, hvalue, hform.isSchema⟩

/-- A schema is read back from what it is written as, unless brackets nest more than 127 deep;
then that is what the text is refused for. -/
theorem ofJsonText_of_writtenAs {schema : Schema} {form : Json} (hform : schema.WrittenAs form)
    {text : String} (hprints : Prints form text) :
    (form.depth ≤ 127 → Schema.ofJsonText text = .ok schema) ∧
      (127 < form.depth → ∃ fault, Schema.ofJsonText text = .error fault ∧
        fault.category = .form ∧ fault.message = "recursion limit exceeded") := by
  obtain ⟨hshallow, hdeep⟩ :=
    readDocument_limit Schema.readJson_curbs (readDocument_eq_ok_iff hform hprints)
  refine ⟨hshallow, fun hdepth => ?_⟩
  obtain ⟨place, hplace⟩ := hdeep hdepth
  exact ⟨.malformed .tooDeep place, hplace, rfl, rfl⟩

def leaf : Modifier :=
  ⟨"value", .string, ⟨[], ⟨"key", by decide⟩⟩⟩

/-- Groups in one another, each with a modifier beside the next one. -/
def nested : Nat → Schema
  | 0 => .empty
  | n + 1 => (Schema.empty.withField "inner" (nested n).toField).withField "name" leaf.toField

def listed : Nat → List (String × Field)
  | 0 => []
  | n + 1 => [("name", .modifier leaf), ("inner", .group none (listed n))]

theorem toField_nested (n : Nat) :
    (nested n).toField.val = .group none (nested n).fields.toList := by
  cases n <;> rfl

theorem nested_listedBy (n : Nat) : (nested n).ListedBy (listed n) := by
  induction n with
  | zero => exact ⟨[], .nil, trivial⟩
  | succ n ih =>
    have hfields : (nested (n + 1)).fields.toList =
        [("inner", (nested n).toField.val), ("name", .modifier leaf)] := rfl
    rw [toField_nested] at hfields
    refine ⟨[("name", .modifier leaf), ("inner", .group none (nested n).fields.toList)], ?_,
      rfl, rfl, rfl, ⟨rfl, ih⟩, trivial⟩
    rw [hfields]
    exact .swap ..

theorem depth_listed (n : Nat) :
    (groupJson none (Field.toJsonAll (listed n))).depth = 2 * n + 2 := by
  induction n with
  | zero => rfl
  | succ n ih =>
    have hdepth : (groupJson none (Field.toJsonAll (listed (n + 1)))).depth =
        max (max leaf.toJson.depth
          (max (groupJson none (Field.toJsonAll (listed n))).depth 0) + 1) 0 + 1 := rfl
    have hleaf : leaf.toJson.depth = 1 := rfl
    rw [hdepth, ih, hleaf]
    omega

theorem writtenAs_listed (n : Nat) :
    (nested n).WrittenAs (groupJson none (Field.toJsonAll (listed n))) := by
  refine ⟨listed n, nested_listedBy n, ?_⟩
  cases n <;> rfl

/-- The deepest of these schemas that is read back, and the next one, which is refused. -/
theorem ofJsonText_nested :
    Schema.ofJsonText (compact (groupJson none (Field.toJsonAll (listed 62)))) = .ok (nested 62) ∧
      ∃ fault, Schema.ofJsonText (pretty (groupJson none (Field.toJsonAll (listed 63)))) =
          .error fault ∧
        fault.category = .form ∧ fault.message = "recursion limit exceeded" := by
  have hshallow : (groupJson none (Field.toJsonAll (listed 62))).depth ≤ 127 :=
    Nat.le_trans (Nat.le_of_eq (depth_listed 62)) (by decide)
  have hdeep : 127 < (groupJson none (Field.toJsonAll (listed 63))).depth :=
    Nat.lt_of_lt_of_eq (by decide) (depth_listed 63).symm
  exact ⟨(ofJsonText_of_writtenAs (writtenAs_listed 62) (.inl rfl)).1 hshallow,
    (ofJsonText_of_writtenAs (writtenAs_listed 63) (.inr rfl)).2 hdeep⟩

end Schema

end Setters

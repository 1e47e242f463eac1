import Setters.Proofs.Compilation.Order
import Setters.Proofs.Json.Printed
import Setters.Proofs.Schema.Judging

/-!
# Schemas as fields

A document is read as the same schema whether it stands by itself or as a field of another one:
`Schema.ofJsonText_asField`. The two are read by different records. A field knows keys that a
schema does not, and takes null for a missing entry where a schema does not, so the documents in
question are those in which none of these entries is null.
-/

namespace Setters

open Json

/-- The keys whose entries a field may leave null, and a schema may not. -/
def filledWords : List String :=
  ["fields", "parameter", "type", "target"]

/-- Whether none of those entries is null. -/
def Json.Filled (members : List (String × Json)) : Prop :=
  ∀ member ∈ members, member.1 ∈ filledWords → member.2 ≠ .null

/-- Whether none of those entries is null where they are written. -/
def Json.Written.Filled (members : List (List Piece × Written)) : Prop :=
  ∀ member ∈ members, ∀ word ∈ filledWords, textOf member.1 = some word → member.2 ≠ .null

theorem Json.Written.Filled.value {members : List (List Piece × Written)}
    (h : Written.Filled members) {vs : List (String × Json)}
    (hvs : Written.members? members = some vs) : Json.Filled vs := by
  induction members generalizing vs with
  | nil =>
    obtain rfl := Option.some.inj hvs
    intro member hmember
    cases hmember
  | cons member members ih =>
    obtain ⟨key, value⟩ := member
    obtain ⟨word, v, rest, hkey, hv, hrest, rfl⟩ := Written.members?_cons_eq_some_iff.mp hvs
    obtain ⟨hhead, htail⟩ := List.forall_mem_cons.mp h
    refine List.forall_mem_cons.mpr ⟨fun hword hnull => ?_, ih htail hrest⟩
    obtain rfl : v = .null := hnull
    exact hhead word hword hkey (Written.value?_eq_null_iff.mp hv)

/-! ### Fields that are groups -/

theorem Schema.toField_injective {schema schema' : Schema}
    (h : schema.toField = schema'.toField) : schema = schema' := by
  obtain ⟨help, ⟨fields, _⟩⟩ := schema
  obtain ⟨help', ⟨fields', _⟩⟩ := schema'
  have hval : Field.group help fields = .group help' fields' := congrArg Subtype.val h
  obtain ⟨rfl, rfl⟩ := Field.group.inj hval
  rfl

theorem Modifier.toField_ne (m : Modifier) (schema : Schema) : m.toField ≠ schema.toField := by
  intro h
  have hval : Field.modifier m = .group schema.help schema.fields.toList := congrArg Subtype.val h
  cases hval

variable {vs : List (String × Json)} {schema : Schema}

theorem Json.Filled.notMem (h : Json.Filled vs) {word : String} (hword : word ∈ filledWords)
    (habsent : Absent (vs.lookup word)) : word ∉ vs.map Prod.fst := by
  rcases habsent with hnone | hnull
  · intro hmem
    obtain ⟨member, hmember, rfl⟩ := List.mem_map.mp hmem
    have hne := List.lookup_eq_none_iff.mp hnone member hmember
    exact absurd rfl (bne_iff_ne.mp hne)
  · obtain ⟨before, after, rfl, -⟩ := List.lookup_eq_some_iff.mp hnull
    have hmem : (word, Json.null) ∈ before ++ (word, .null) :: after :=
      List.mem_append_right _ List.mem_cons_self
    exact absurd rfl (h _ hmem hword)

/-- A field without the entries of a modifier has the entries of a schema alone. -/
theorem Json.Filled.known (h : Json.Filled vs)
    (known : ∀ word ∈ vs.map Prod.fst, word ∈ fieldRecord.words)
    (hparameter : Absent (vs.lookup "parameter")) (htype : Absent (vs.lookup "type"))
    (htarget : Absent (vs.lookup "target")) :
    ∀ word ∈ vs.map Prod.fst, word ∈ schemaRecord.words := by
  have hnoParameter := h.notMem (by decide) hparameter
  have hnoType := h.notMem (by decide) htype
  have hnoTarget := h.notMem (by decide) htarget
  intro word hword
  have hmem := known word hword
  simp only [fieldRecord, Record.words, List.map_cons, List.map_nil, List.mem_cons,
    List.not_mem_nil, or_false] at hmem
  rcases hmem with rfl | rfl | rfl | rfl | rfl
  · decide
  · decide
  · exact absurd hword hnoParameter
  · exact absurd hword hnoType
  · exact absurd hword hnoTarget

theorem isSchema_of_isField (hfilled : Json.Filled vs)
    (h : IsField (.object vs) schema.toField) : IsSchema (.object vs) schema := by
  generalize hfield : schema.toField = field at h
  cases h with
  | modifier => exact absurd hfield.symm (Modifier.toField_ne _ schema)
  | bareGroup hentries hhelp hfields hparameter htype htarget =>
    obtain rfl := Schema.toField_injective hfield
    cases hentries with
    | table distinct known =>
      -- null stands for a missing entry in a field, so the entry has to be missing
      have hknown := hfilled.known known hparameter htype htarget
      have hmissing : vs.lookup "fields" = none :=
        Field.lookup_eq_none_of_notMem (hfilled.notMem (by decide) hfields)
      exact .bare (.table distinct hknown) hhelp hmissing
  | group hentries hhelp hmembers hfields hparameter htype htarget =>
    obtain rfl := Schema.toField_injective hfield
    cases hentries with
    | table distinct known =>
      have hknown := hfilled.known known hparameter htype htarget
      exact .full (.table distinct hknown) hhelp hmembers hfields

theorem isField_of_isSchema (h : IsSchema (.object vs) schema) :
    IsField (.object vs) schema.toField := by
  have habsent : ∀ {word : String}, (∀ word ∈ vs.map Prod.fst, word ∈ schemaRecord.words) →
      word ∉ schemaRecord.words → Absent (vs.lookup word) := fun known hword =>
    .inl (Field.lookup_eq_none_of_notMem fun hmem => hword (known _ hmem))
  have hwords : ∀ word ∈ schemaRecord.words, word ∈ fieldRecord.words := by decide
  cases h with
  | bare hentries hhelp hfields =>
    cases hentries with
    | table distinct known =>
      have hknown := fun word hword => hwords word (known word hword)
      exact .bareGroup (.table distinct hknown) hhelp (.inl hfields)
        (habsent known (by decide)) (habsent known (by decide)) (habsent known (by decide))
  | full hentries hhelp hmembers hfields =>
    cases hentries with
    | table distinct known =>
      have hknown := fun word hword => hwords word (known word hword)
      exact .group (.table distinct hknown) hhelp hmembers hfields
        (habsent known (by decide)) (habsent known (by decide)) (habsent known (by decide))

theorem isField_toField_iff (hfilled : Json.Filled vs) :
    IsField (.object vs) schema.toField ↔ IsSchema (.object vs) schema :=
  ⟨isSchema_of_isField hfilled, isField_of_isSchema⟩

/-! ### Schemas with one field -/

/-- Without help, a schema has a field alone when its value is one. -/
theorem exists_isSchema_iff {name : String} {w : Json} {field : OrderedField} :
    (∃ outer : Schema, IsSchema (.object [("fields", .object [(name, w)])]) outer ∧
        outer.fields.toList.lookup name = some field.val) ↔ IsField w field := by
  constructor
  · rintro ⟨outer, houter, hlookup⟩
    cases houter with
    | bare hentries hhelp hfields =>
      cases hentries
      cases hfields
    | full hentries hhelp hmembers hfields =>
      cases hentries
      obtain rfl := Option.some.inj hmembers
      cases hfields with
      | mk hnamed hlast =>
        cases hnamed with
        | cons hfield hnil =>
          cases hnil
          rw [hlast, List.reverse_singleton, List.lookup_cons_self] at hlookup
          obtain rfl := Subtype.ext (Option.some.inj hlookup)
          exact hfield
  · intro hfield
    have hlast : (Fields.empty.insert name field).HoldsLast [(name, field)] := by
      intro n
      rw [Fields.insert, Field.lookup_insert, List.reverse_singleton]
      by_cases hn : n = name
      · rw [if_pos hn, hn, List.lookup_cons_self, Option.map_some]
      · rw [if_neg hn, Field.lookup_tail hn]
        rfl
    have hentries : HasEntries ["help", "fields"] 0 (.object [("fields", .object [(name, w)])])
        fun word => [("fields", Json.object [(name, w)])].lookup word :=
      .table (by simp) (by simp)
    have hschema := IsSchema.full hentries (.absent (.inl rfl)) rfl
      (.mk (.cons hfield .nil) hlast)
    refine ⟨_, hschema, ?_⟩
    rw [hlast, List.reverse_singleton, List.lookup_cons_self, Option.map_some]

/-- A document with another one as its only field. -/
def Json.Written.asField (fields key : List Piece) (document : Written) : Written :=
  .object [(fields, .object [(key, document)])]

theorem Json.Written.value?_asField {fields key : List Piece} {name : String}
    (hfields : textOf fields = some "fields") (hkey : textOf key = some name)
    (document : Written) :
    (document.asField fields key).value? =
      document.value?.map fun w => .object [("fields", .object [(name, w)])] := by
  simp only [asField, value?, members?, hfields, hkey, Option.bind_some]
  cases document.value? <;> rfl

theorem Json.Written.depth_asField (fields key : List Piece) (document : Written) :
    (document.asField fields key).depth = document.depth + 2 := by
  simp only [asField, depth, depthMembers]
  omega

/-- A document in which no entry that a field may leave null is null is read as a schema exactly
where a document with it as a field is read with that schema in this field. -/
theorem Schema.ofJsonText_asField {members : List (List Piece × Written)}
    (hfilled : Written.Filled members) {fields key : List Piece} {name : String}
    (hfields : textOf fields = some "fields") (hkey : textOf key = some name)
    {text larger : String} (htext : (Written.object members).IsDocument text)
    (hlarger : ((Written.object members).asField fields key).IsDocument larger)
    (hdepth : ((Written.object members).asField fields key).depth ≤ 127) (schema : Schema) :
    (∃ outer, Schema.ofJsonText larger = .ok outer ∧
        outer.fields.toList.lookup name = some schema.toField.val) ↔
      Schema.ofJsonText text = .ok schema := by
  have hinner : (Written.object members).depth ≤ 127 := by
    rw [Written.depth_asField] at hdepth
    omega
  have hread : ∀ {document : Written} {text : String}, document.IsDocument text →
      document.depth ≤ 127 → ∀ schema, Schema.ofJsonText text = .ok schema ↔
        ∃ v, document.value? = some v ∧ IsSchema v schema := by
    intro document text hdocument hdepth schema
    rw [← toOption_eq_some_iff, ofJsonText_toOption hdocument, decode_judges maxDepth]
    exact and_iff_right hdepth
  simp only [hread htext hinner, hread hlarger hdepth, Written.value?_asField hfields hkey]
  cases hvalue : (Written.object members).value? with
  | none => simp
  | some w =>
    obtain ⟨vs, hvs, rfl⟩ := Option.map_eq_some_iff.mp hvalue
    simp only [Option.map_some, Option.some.injEq, exists_eq_left']
    exact exists_isSchema_iff.trans (isField_toField_iff (hfilled.value hvs))

/-! ### A text in a field -/

def fieldText (name text : String) : String :=
  "\x7b\"fields\": \x7b" ++ String.ofList (literal name) ++ ": " ++ text ++ "\x7d\x7d"

theorem isDocument_fieldText (name : String) {document : Written} {text : String}
    (h : document.IsDocument text) : ∃ key, textOf key = some name ∧
      (document.asField (plainPieces "fields") key).IsDocument (fieldText name text) := by
  obtain ⟨key, hquoted, hkey⟩ := exists_pieces name
  obtain ⟨before, body, after, htext, hbefore, hafter, hspells⟩ := h
  have hspace : Blank (' ' :: before) := List.forall_mem_cons.mpr ⟨rfl, hbefore⟩
  have hfield := Written.spellsMembers_last key blank_nil hspace hspells hafter
  have hinner : (Written.object [(key, document)]).Spells _ := ⟨_, rfl, hfield⟩
  have houter := Written.spellsMembers_last (plainPieces "fields") blank_nil blank_space hinner
    blank_nil
  refine ⟨key, hkey, [], _, [], ?_, blank_nil, blank_nil, _, rfl, houter⟩
  have hopen : "\x7b\"fields\": \x7b".toList =
      '\x7b' :: (quoted (plainPieces "fields") ++ [':', ' ', '\x7b']) := by decide
  have hcolon : ": ".toList = [':', ' '] := by decide
  have hclose : "\x7d\x7d".toList = ['\x7d', '\x7d'] := by decide
  simp only [fieldText, String.toList_append, String.toList_ofList, htext, hopen, hcolon, hclose,
    hquoted, List.append_assoc, List.cons_append, List.nil_append, List.append_nil]

/-- A document whose help is null, by itself and as a field. -/
theorem podText_asField :
    ∃ schema, Schema.ofJsonText podText = .ok schema ∧
      ∃ outer, Schema.ofJsonText (fieldText "pod" podText) = .ok outer ∧
        outer.fields.toList.lookup "pod" = some schema.toField.val := by
  have hfilled : Written.Filled [(plainPieces "help", .null), (plainPieces "fields", .object [
      (plainPieces "image", .object [
        (plainPieces "parameter", .string (plainPieces "tag")),
        (plainPieces "type", .string (plainPieces "string")),
        (plainPieces "target", .string (plainPieces "image"))])])] := by
    have hhelp : textOf (plainPieces "help") = some "help" := by decide
    refine List.forall_mem_cons.mpr ⟨fun word hword hkey => ?_, List.forall_mem_singleton.mpr ?_⟩
    · obtain rfl := Option.some.inj (hhelp.symm.trans hkey)
      exact absurd hword (by decide)
    · intro word _ _ hnull
      cases hnull
  obtain ⟨key, hkey, hlarger⟩ := isDocument_fieldText "pod" podText_isDocument
  have hdepth : (podValue.asField (plainPieces "fields") key).depth ≤ 127 := by
    rw [Written.depth_asField]
    decide
  have hreads : (Schema.ofJsonText podText).toOption.isSome := by decide +kernel
  obtain ⟨schema, hread⟩ := Option.isSome_iff_exists.mp hreads
  have hschema := toOption_eq_some_iff.mp hread
  exact ⟨schema, hschema, (Schema.ofJsonText_asField hfilled (by decide) hkey podText_isDocument
    hlarger hdepth schema).mpr hschema⟩

end Setters

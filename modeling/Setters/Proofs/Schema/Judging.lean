import Setters.Proofs.Schema.Fields
import Setters.Proofs.Schema.Grammar

/-!
# Decoding goes by the grammar

`Schema.decode_judges`: decoding finds the schema of a written value exactly when the grammar has
the value as that schema and its brackets do not nest too deep. Records are judged by their
layouts, fields by the parts of their drafts, and objects of fields member by member.
-/

namespace Setters

open Json

variable {α : Type}

/-! ### Leaves -/

theorem text?_judges (room : Nat) : Judges room Written.text? IsText := by
  intro value text
  constructor
  · intro h
    cases value with
    | string pieces =>
      have htext : textOf pieces = some text := h
      exact ⟨Nat.zero_le _, .string text, by rw [Written.value?, htext, Option.map_some], rfl⟩
    | _ => cases h
  · rintro ⟨-, v, hvalue, rfl⟩
    obtain ⟨pieces, rfl, htext⟩ := Written.value?_eq_string_iff.mp hvalue
    exact htext

theorem orNull_judges {room : Nat} {decode : Written → Option α} {rel : Json → α → Prop}
    (h : Judges room decode rel) (hnull : ∀ a, ¬rel .null a) :
    Judges room (Written.orNull decode) (OrNull rel) := by
  intro value a
  by_cases hvalue : value = .null
  · subst hvalue
    constructor
    · intro heq
      obtain rfl := Option.some.inj heq
      exact ⟨Nat.zero_le _, .null, rfl, .null⟩
    · rintro ⟨-, v, hv, hrel⟩
      obtain rfl := Option.some.inj hv
      cases hrel with
      | null => rfl
      | some hrel => exact absurd hrel (hnull _)
  · have hdecode : Written.orNull decode value = (decode value).map some := by
      cases value <;> first | rfl | exact absurd rfl hvalue
    rw [hdecode, Option.map_eq_some_iff]
    constructor
    · rintro ⟨b, hb, rfl⟩
      obtain ⟨hdepth, v, hv, hrel⟩ := (h value b).mp hb
      exact ⟨hdepth, v, hv, .some hrel⟩
    · rintro ⟨hdepth, v, hv, hrel⟩
      cases hrel with
      | null => exact absurd (Written.value?_eq_null_iff.mp hv) hvalue
      | some hrel => exact ⟨_, (h value _).mpr ⟨hdepth, v, hv, hrel⟩, rfl⟩

theorem TargetPath.ofText_toOption_eq_some_iff {text : String} {path : TargetPath} :
    (ofText text).toOption = some path ↔ parse text = .ok path := by
  rw [ofText]
  cases parse text with
  | error fault => exact ⟨fun h => (nomatch h), fun h => nomatch h⟩
  | ok path' =>
    exact ⟨fun h => congrArg _ (Option.some.inj h), fun h => congrArg _ (Except.ok.inj h)⟩

theorem path_judges (room : Nat) : Judges room TargetPath.decode IsPath := by
  intro value path
  simp only [TargetPath.decode, Option.bind_eq_some_iff, text?_judges room value,
    TargetPath.ofText_toOption_eq_some_iff]
  constructor
  · rintro ⟨text, ⟨hdepth, v, hv, hrel⟩, hpath⟩
    exact ⟨hdepth, v, hv, text, hrel, hpath⟩
  · rintro ⟨hdepth, v, hv, text, hrel, hpath⟩
    exact ⟨text, ⟨hdepth, v, hv, hrel⟩, hpath⟩

theorem ValueKind.ofWord_toOption_eq_some_iff {word : String} {kind : ValueKind} :
    (ofWord word).toOption = some kind ↔ word = kind.word := by
  constructor
  · intro h
    rw [ofWord, ofWord?] at h
    cases hfind : all.find? (·.word == word) with
    | none =>
      rw [hfind] at h
      cases h
    | some kind' =>
      rw [hfind] at h
      obtain rfl := Option.some.inj h
      have hword := List.find?_some (p := fun kind : ValueKind => kind.word == word) hfind
      exact (beq_iff_eq.mp hword).symm
  · rintro rfl
    cases kind <;> decide

theorem decodeNull_eq_some_iff {value : Written} {u : Unit} :
    decodeNull value = some u ↔ value.value? = some .null := by
  rw [Written.value?_eq_null_iff]
  constructor
  · intro h
    cases value with
    | null => rfl
    | _ => cases h
  · rintro rfl
    rfl

theorem ValueKind.decodeMembers_eq_some_iff {members : List (List Piece × Written)}
    {kind : ValueKind} :
    decodeMembers members = some kind ↔
      Written.members? members = some [(kind.word, .null)] := by
  cases members with
  | nil => exact ⟨fun h => (nomatch h), fun h => nomatch h⟩
  | cons member members =>
    obtain ⟨key, value⟩ := member
    simp only [decodeMembers, Option.bind_eq_some_iff, ofWord_toOption_eq_some_iff,
      decodeNull_eq_some_iff, Written.members?_cons_eq_some_iff]
    constructor
    · rintro ⟨_, hkey, _, rfl, _, hnull, hrest⟩
      split at hrest
      · rename_i hempty
        obtain rfl := List.isEmpty_iff.mp hempty
        obtain rfl := Option.some.inj hrest
        exact ⟨_, _, [], hkey, hnull, rfl, rfl⟩
      · cases hrest
    · rintro ⟨_, _, rest, hkey, hnull, hrest, hcons⟩
      obtain ⟨hhead, rfl⟩ := List.cons.inj hcons
      obtain ⟨rfl, rfl⟩ := Prod.mk.inj hhead
      refine ⟨_, hkey, kind, rfl, (), hnull, ?_⟩
      cases members with
      | nil => rfl
      | cons member members =>
        obtain ⟨_, _, _, _, _, _, hcons⟩ := Written.members?_cons_eq_some_iff.mp hrest
        cases hcons

theorem kind_judges (room : Nat) : Judges room (ValueKind.decode room) IsKind := by
  intro value kind
  cases value with
  | string pieces =>
    simp only [ValueKind.decode, Option.bind_eq_some_iff, ValueKind.ofWord_toOption_eq_some_iff,
      Written.value?, Option.map_eq_some_iff]
    constructor
    · rintro ⟨_, htext, rfl⟩
      exact ⟨Nat.zero_le _, _, ⟨_, htext, rfl⟩, .word kind⟩
    · rintro ⟨-, _, ⟨text, htext, rfl⟩, hkind⟩
      cases hkind
      exact ⟨_, htext, rfl⟩
  | object members =>
    cases room with
    | zero =>
      constructor
      · intro h
        cases h
      · rintro ⟨hdepth, -⟩
        rw [Written.depth] at hdepth
        omega
    | succ room =>
      rw [ValueKind.decode, ValueKind.decodeMembers_eq_some_iff]
      constructor
      · intro hmembers
        have hvalue : (Written.object members).value? = some (.object [(kind.word, .null)]) := by
          rw [Written.value?, hmembers, Option.map_some]
        have hdepth := Written.depth_of_value? _ _ hvalue
        exact ⟨hdepth ▸ Nat.le_add_left 1 room, _, hvalue, .table kind⟩
      · rintro ⟨-, v, hv, hkind⟩
        obtain ⟨vs, hvs, rfl⟩ := Option.map_eq_some_iff.mp hv
        cases hkind
        exact hvs
  | null | boolean | number | array =>
    constructor
    · intro h
      cases h
    · rintro ⟨-, v, hv, hkind⟩
      cases hkind <;> simp [Written.value?] at hv

/-! ### Entries that may be null -/

theorem Absent.exists_rel {entry : Option Json} (h : Absent entry) (rel : Json → α → Prop) :
    ∃ p, Option.Rel (OrNull rel) entry p ∧ p.join = none := by
  rcases h with rfl | rfl
  · exact ⟨none, .none, rfl⟩
  · exact ⟨some none, .some .null, rfl⟩

theorem absent_of_join_eq_none {rel : Json → α → Prop} {entry : Option Json}
    {p : Option (Option α)} (h : Option.Rel (OrNull rel) entry p) (hp : p.join = none) :
    Absent entry := by
  cases h with
  | none => exact .inl rfl
  | some hor =>
    cases hor with
    | null => exact .inr rfl
    | some hrel => cases hp

theorem exists_of_join_eq_some {rel : Json → α → Prop} {entry : Option Json}
    {p : Option (Option α)} {a : α} (h : Option.Rel (OrNull rel) entry p) (hp : p.join = some a) :
    ∃ v, entry = some v ∧ rel v a := by
  cases h with
  | none => cases hp
  | some hor =>
    cases hor with
    | null => cases hp
    | some hrel =>
      obtain rfl := Option.some.inj hp
      exact ⟨_, rfl, hrel⟩

theorem IsHelp.exists_rel {entry : Option Json} {help : Option String} (h : IsHelp entry help) :
    ∃ p, Option.Rel (OrNull IsText) entry p ∧ p.join = help := by
  cases h with
  | absent habsent => exact habsent.exists_rel IsText
  | text text => exact ⟨some (some text), .some (.some rfl), rfl⟩

theorem isHelp_join {entry : Option Json} {p : Option (Option String)}
    (h : Option.Rel (OrNull IsText) entry p) : IsHelp entry p.join := by
  cases hp : p.join with
  | none => exact .absent (absent_of_join_eq_none h hp)
  | some text =>
    obtain ⟨_, rfl, rfl⟩ := exists_of_join_eq_some h hp
    exact .text text

/-! ### Fields -/

def FieldKey.Part : FieldKey → Type
  | .help | .parameter => Option String
  | .fields => Option Fields
  | .type => Option ValueKind
  | .target => Option TargetPath

/-- The parts of the draft of a field. -/
def fieldLayout : fieldRecord.Layout FieldKey.Part where
  part draft
    | .help => draft.help
    | .fields => draft.fields
    | .parameter => draft.parameter
    | .type => draft.type
    | .target => draft.target
  put
    | .help, a, draft => { draft with help := some a }
    | .fields, a, draft => { draft with fields := some a }
    | .parameter, a, draft => { draft with parameter := some a }
    | .type, a, draft => { draft with type := some a }
    | .target, a, draft => { draft with target := some a }
  ext h := by
    rename_i draft draft'
    cases draft
    cases draft'
    simpa using ⟨h .help, h .fields, h .parameter, h .type, h .target⟩
  part_start key := by cases key <;> rfl
  part_put_self draft key a := by cases key <;> rfl
  part_put_of_ne draft key key' a h := by
    cases key <;> cases key' <;> first | rfl | exact absurd rfl h
  has_eq draft key := by cases key <;> rfl
  mem_keys key := by cases key <;> decide
  nodup_keys := by decide
  word_inj {key key'} h := by revert h; cases key <;> cases key' <;> decide

def FieldKey.decode (decodeFields : Written → Option Fields) (room : Nat) :
    (key : FieldKey) → Written → Option key.Part
  | .help | .parameter => Written.orNull Written.text?
  | .fields => Written.orNull decodeFields
  | .type => Written.orNull (ValueKind.decode room)
  | .target => Written.orNull TargetPath.decode

def FieldKey.Holds : (key : FieldKey) → Json → key.Part → Prop
  | .help | .parameter => OrNull IsText
  | .fields => OrNull IsFields
  | .type => OrNull IsKind
  | .target => OrNull IsPath

theorem FieldDraft.decode_eq_enter (decodeFields : Written → Option Fields) (room : Nat) :
    FieldDraft.decode decodeFields room =
      fieldLayout.enter (FieldKey.decode decodeFields room) := by
  funext draft key value
  cases key <;> exact Option.map_map _ _ _

theorem FieldKey.decode_judges {decodeFields : Written → Option Fields} {room : Nat}
    (h : Judges room decodeFields IsFields) (key : FieldKey) :
    Judges room (key.decode decodeFields room) key.Holds := by
  have htext := orNull_judges (text?_judges room) fun text h => nomatch h
  cases key with
  | help => exact htext
  | fields => exact orNull_judges h fun fields h => nomatch h
  | parameter => exact htext
  | type => exact orNull_judges (kind_judges room) fun kind h => nomatch h
  | target => exact orNull_judges (path_judges room) fun path h => nomatch h

/-- A draft comes to a field in two ways. -/
theorem FieldDraft.resolve_toOption_eq_some_iff {draft : FieldDraft} {field : OrderedField} :
    draft.resolve.toOption = some field ↔
      (draft.target.join = none ∧ draft.parameter.join = none ∧ draft.type.join = none ∧
        (Schema.mk draft.help.join (draft.fields.join.getD .empty)).toField = field) ∨
      ∃ target parameter kind, draft.target.join = some target ∧
        draft.parameter.join = some parameter ∧ draft.type.join = some kind ∧
        draft.help.join = none ∧ draft.fields.join = none ∧
        (Modifier.mk parameter kind target).toField = field := by
  unfold FieldDraft.resolve
  generalize draft.help.join = help, draft.fields.join = fields, draft.parameter.join = parameter,
    draft.type.join = type, draft.target.join = target
  cases target with
  | none => cases parameter <;> cases type <;> simp [Except.toOption]
  | some target =>
    cases help <;> cases fields <;> cases parameter <;> cases type <;> simp [Except.toOption]

theorem fieldRecord_short (count : Nat) (draft : FieldDraft) (h : count < fieldRecord.keys.length) :
    (fieldRecord.short count draft).toOption = if 5 ≤ count then some draft else none := by
  have hshort : ¬5 ≤ count := Nat.not_le_of_lt h
  rw [if_neg hshort]
  rfl

/-- Whether the entries of a field come to a draft. -/
def FieldDraft.Matches (entries : String → Option Json) (draft : FieldDraft) : Prop :=
  ∀ key : FieldKey,
    Option.Rel key.Holds (entries (fieldRecord.word key)) (fieldLayout.part draft key)

theorem FieldDraft.matches_mk {entries : String → Option Json}
    {help parameter : Option (Option String)} {fields : Option (Option Fields)}
    {type : Option (Option ValueKind)} {target : Option (Option TargetPath)}
    (hhelp : Option.Rel (OrNull IsText) (entries "help") help)
    (hfields : Option.Rel (OrNull IsFields) (entries "fields") fields)
    (hparameter : Option.Rel (OrNull IsText) (entries "parameter") parameter)
    (htype : Option.Rel (OrNull IsKind) (entries "type") type)
    (htarget : Option.Rel (OrNull IsPath) (entries "target") target) :
    Matches entries ⟨help, fields, parameter, type, target⟩ := by
  intro key
  cases key with
  | help => exact hhelp
  | fields => exact hfields
  | parameter => exact hparameter
  | type => exact htype
  | target => exact htarget

theorem IsField.exists_draft {v : Json} {field : OrderedField} (h : IsField v field) :
    ∃ entries, HasEntries fieldRecord.words 5 v entries ∧
      ∃ draft, FieldDraft.Matches entries draft ∧ draft.resolve.toOption = some field := by
  cases h with
  | @modifier _ type entries parameter text kind target hentries hhelp hfields hparameter htype
      hkind htarget hpath =>
    obtain ⟨help, hhelp, hnoHelp⟩ := hhelp.exists_rel IsText
    obtain ⟨fields, hfields, hnoFields⟩ := hfields.exists_rel IsFields
    have hmatches : FieldDraft.Matches entries
        ⟨help, fields, some (some parameter), some (some kind), some (some target)⟩ :=
      FieldDraft.matches_mk hhelp hfields (hparameter ▸ .some (.some rfl))
        (htype ▸ .some (.some hkind)) (htarget ▸ .some (.some ⟨text, rfl, hpath⟩))
    refine ⟨entries, hentries, _, hmatches, FieldDraft.resolve_toOption_eq_some_iff.mpr (.inr ?_)⟩
    exact ⟨target, parameter, kind, rfl, rfl, rfl, hnoHelp, hnoFields, rfl⟩
  | @bareGroup _ entries _ hentries hhelp hfields hparameter htype htarget =>
    obtain ⟨help, hrelHelp, rfl⟩ := hhelp.exists_rel
    obtain ⟨fields, hfields, hnoFields⟩ := hfields.exists_rel IsFields
    obtain ⟨parameter, hparameter, hnoParameter⟩ := hparameter.exists_rel IsText
    obtain ⟨type, htype, hnoType⟩ := htype.exists_rel IsKind
    obtain ⟨target, htarget, hnoTarget⟩ := htarget.exists_rel IsPath
    have hmatches := FieldDraft.matches_mk hrelHelp hfields hparameter htype htarget
    refine ⟨entries, hentries, _, hmatches, FieldDraft.resolve_toOption_eq_some_iff.mpr (.inl ?_)⟩
    exact ⟨hnoTarget, hnoParameter, hnoType, by rw [hnoFields]; rfl⟩
  | @group _ members entries _ fields hentries hhelp hmembers hfields hparameter htype htarget =>
    obtain ⟨help, hrelHelp, rfl⟩ := hhelp.exists_rel
    obtain ⟨parameter, hparameter, hnoParameter⟩ := hparameter.exists_rel IsText
    obtain ⟨type, htype, hnoType⟩ := htype.exists_rel IsKind
    obtain ⟨target, htarget, hnoTarget⟩ := htarget.exists_rel IsPath
    have hmatches : FieldDraft.Matches entries
        ⟨help, some (some fields), parameter, type, target⟩ :=
      FieldDraft.matches_mk hrelHelp (hmembers ▸ .some (.some hfields)) hparameter htype htarget
    refine ⟨entries, hentries, _, hmatches, FieldDraft.resolve_toOption_eq_some_iff.mpr (.inl ?_)⟩
    exact ⟨hnoTarget, hnoParameter, hnoType, rfl⟩

theorem isField_of_draft {v : Json} {field : OrderedField} {entries : String → Option Json}
    {draft : FieldDraft} (hentries : HasEntries fieldRecord.words 5 v entries)
    (h : draft.Matches entries) (hresolve : draft.resolve.toOption = some field) :
    IsField v field := by
  rcases FieldDraft.resolve_toOption_eq_some_iff.mp hresolve with
    ⟨htarget, hparameter, htype, rfl⟩ |
    ⟨target, parameter, kind, htarget, hparameter, htype, hhelp, hfields, rfl⟩
  · have hparameter := absent_of_join_eq_none (h .parameter) hparameter
    have htype := absent_of_join_eq_none (h .type) htype
    have htarget := absent_of_join_eq_none (h .target) htarget
    cases hfields : draft.fields.join with
    | none =>
      have hfields := absent_of_join_eq_none (h .fields) hfields
      exact .bareGroup hentries (isHelp_join (h .help)) hfields hparameter htype htarget
    | some fields =>
      obtain ⟨members, hmembers, hfields⟩ := exists_of_join_eq_some (h .fields) hfields
      exact .group hentries (isHelp_join (h .help)) hmembers hfields hparameter htype htarget
  · have hhelp := absent_of_join_eq_none (h .help) hhelp
    have hfields := absent_of_join_eq_none (h .fields) hfields
    obtain ⟨_, hparameter, rfl⟩ := exists_of_join_eq_some (h .parameter) hparameter
    obtain ⟨type, htype, hkind⟩ := exists_of_join_eq_some (h .type) htype
    obtain ⟨_, htarget, text, rfl, hpath⟩ := exists_of_join_eq_some (h .target) htarget
    exact .modifier hentries hhelp hfields hparameter htype hkind htarget hpath

theorem HasEntries.depth_ne_zero {words : List String} {least : Nat} {v : Json}
    {entries : String → Option Json} (h : HasEntries words least v entries) : v.depth ≠ 0 := by
  cases h <;> exact Nat.succ_ne_zero _

theorem IsField.depth_ne_zero {v : Json} {field : OrderedField} (h : IsField v field) :
    v.depth ≠ 0 := by
  obtain ⟨entries, hentries, -⟩ := h.exists_draft
  exact hentries.depth_ne_zero

theorem not_judges_zero (rel : Json → α → Prop) {value : Written} {a : α}
    (h : ∀ v a, rel v a → v.depth ≠ 0) :
    ¬(value.depth ≤ 0 ∧ ∃ v, value.value? = some v ∧ rel v a) := by
  rintro ⟨hdepth, v, hv, hrel⟩
  rw [← Written.depth_of_value? value v hv] at hdepth
  exact h v a hrel (Nat.le_zero.mp hdepth)

theorem OrderedField.decode_judges {room : Nat}
    (h : Judges room (Fields.decode room) IsFields) :
    Judges (room + 1) (OrderedField.decode (room + 1)) IsField := by
  intro value field
  rw [OrderedField.decode, FieldDraft.decode_eq_enter, Option.bind_eq_some_iff]
  simp only [Record.Layout.decode_eq_some_iff (fun key => FieldKey.decode_judges h key)
    (Nat.le_refl 5) fieldRecord_short]
  constructor
  · rintro ⟨draft, ⟨hdepth, v, hv, entries, hentries, hmatches⟩, hresolve⟩
    exact ⟨hdepth, v, hv, isField_of_draft hentries hmatches hresolve⟩
  · rintro ⟨hdepth, v, hv, hfield⟩
    obtain ⟨entries, hentries, draft, hmatches, hresolve⟩ := hfield.exists_draft
    exact ⟨draft, ⟨hdepth, v, hv, entries, hentries, hmatches⟩, hresolve⟩

/-- Fields are decoded one after the other, and the last one under a name is left. -/
theorem decodeFields_eq_some_iff {decode : Written → Option OrderedField} {room : Nat}
    (h : Judges room decode IsField) {members : List (List Piece × Written)}
    {start fields : Fields} :
    members.foldlM
        (decodeMember fun fields name value =>
          (decode value).map fun field => fields.insert name field) start = some fields ↔
      Written.depthMembers members ≤ room ∧ ∃ vs, Written.members? members = some vs ∧
        ∃ named, AreFields vs named ∧ ∀ name, fields.toList.lookup name =
          ((named.reverse.lookup name).map Subtype.val).or (start.toList.lookup name) := by
  induction members generalizing start with
  | nil =>
    constructor
    · intro hfold
      obtain rfl := Option.some.inj hfold
      exact ⟨Nat.zero_le _, [], rfl, [], .nil, fun name => rfl⟩
    · rintro ⟨-, vs, hvs, named, hnamed, hlookup⟩
      obtain rfl := Option.some.inj hvs
      cases hnamed
      exact congrArg some (Fields.ext_lookup hlookup).symm
  | cons member members ih =>
    obtain ⟨key, value⟩ := member
    -- the field in front is behind all others once the list is reversed
    have hlast : ∀ {name n : String} {field : OrderedField} {named : List (String × OrderedField)},
        ((((name, field) :: named).reverse.lookup n).map Subtype.val).or
            (start.toList.lookup n) =
          ((named.reverse.lookup n).map Subtype.val).or
            ((start.insert name field).toList.lookup n) := by
      intro name n field named
      rw [Field.lookup_reverse_cons, Option.map_or, Option.or_assoc, Fields.insert,
        Field.lookup_insert]
      by_cases hn : n = name <;> simp [hn]
    rw [List.foldlM_cons, Option.bind_eq_bind, Option.bind_eq_some_iff]
    simp only [decodeMember, Option.bind_eq_some_iff, Option.map_eq_some_iff, h value, ih,
      Written.members?_cons_eq_some_iff, Written.depthMembers, Nat.max_le]
    constructor
    · rintro ⟨_, ⟨name, hname, field, ⟨hdepth, v, hv, hfield⟩, rfl⟩, hdepths, vs, hvs, named,
        hnamed, hlookup⟩
      refine ⟨⟨hdepth, hdepths⟩, _, ⟨name, v, vs, hname, hv, hvs, rfl⟩, (name, field) :: named,
        .cons hfield hnamed, fun n => ?_⟩
      rw [hlookup, hlast]
    · rintro ⟨⟨hdepth, hdepths⟩, _, ⟨name, v, vs, hname, hv, hvs, rfl⟩, _, hnamed, hlookup⟩
      cases hnamed with
      | @cons _ _ field _ named hfield hnamed =>
        refine ⟨_, ⟨name, hname, field, ⟨hdepth, v, hv, hfield⟩, rfl⟩, hdepths, vs, hvs, named,
          hnamed, fun n => ?_⟩
        rw [hlookup, hlast]

theorem IsFields.depth_ne_zero {v : Json} {fields : Fields} (h : IsFields v fields) :
    v.depth ≠ 0 := by
  cases h
  exact Nat.succ_ne_zero _

theorem Fields.decode_judges {room : Nat}
    (h : Judges room (OrderedField.decode room) IsField) :
    Judges (room + 1) (Fields.decode (room + 1)) IsFields := by
  intro value fields
  cases value with
  | object members =>
    rw [Fields.decode, decodeFields_eq_some_iff h, Written.depth, Nat.add_le_add_iff_right]
    refine and_congr_right fun _ => ?_
    constructor
    · rintro ⟨vs, hvs, named, hnamed, hlookup⟩
      refine ⟨.object vs, by rw [Written.value?, hvs, Option.map_some], .mk hnamed fun name => ?_⟩
      rw [hlookup, Fields.empty, List.lookup_nil, Option.or_none]
    · rintro ⟨_, hvalue, hfields⟩
      obtain ⟨vs, hvs, rfl⟩ := Option.map_eq_some_iff.mp hvalue
      cases hfields with
      | @mk _ named _ hnamed hlast =>
        refine ⟨vs, hvs, named, hnamed, fun name => ?_⟩
        rw [hlast, Fields.empty, List.lookup_nil, Option.or_none]
  | null | boolean | number | string | array =>
    constructor
    · intro h
      cases h
    · rintro ⟨-, v, hv, hfields⟩
      cases hfields
      simp [Written.value?] at hv

/-- Fields are decoded where the grammar has them, as deep as there is room. -/
theorem decode_judges (room : Nat) :
    Judges room (OrderedField.decode room) IsField ∧
      Judges room (Fields.decode room) IsFields := by
  induction room with
  | zero =>
    constructor
    · intro value field
      refine ⟨fun h => (nomatch h), fun h => (not_judges_zero IsField ?_ h).elim⟩
      exact fun v field hfield => hfield.depth_ne_zero
    · intro value fields
      have hnone : Fields.decode 0 value = none := by cases value <;> rfl
      rw [hnone]
      refine ⟨fun h => (nomatch h), fun h => (not_judges_zero IsFields ?_ h).elim⟩
      exact fun v fields hfields => hfields.depth_ne_zero
  | succ room ih => exact ⟨OrderedField.decode_judges ih.2, Fields.decode_judges ih.1⟩

/-! ### Schemas -/

def SchemaKey.Part : SchemaKey → Type
  | .help => Option String
  | .fields => Fields

/-- The parts of the draft of a schema. -/
def schemaLayout : schemaRecord.Layout SchemaKey.Part where
  part draft
    | .help => draft.help
    | .fields => draft.fields
  put
    | .help, a, draft => { draft with help := some a }
    | .fields, a, draft => { draft with fields := some a }
  ext h := by
    rename_i draft draft'
    cases draft
    cases draft'
    simpa using ⟨h .help, h .fields⟩
  part_start key := by cases key <;> rfl
  part_put_self draft key a := by cases key <;> rfl
  part_put_of_ne draft key key' a h := by
    cases key <;> cases key' <;> first | rfl | exact absurd rfl h
  has_eq draft key := by cases key <;> rfl
  mem_keys key := by cases key <;> decide
  nodup_keys := by decide
  word_inj {key key'} h := by revert h; cases key <;> cases key' <;> decide

def SchemaKey.decode (room : Nat) : (key : SchemaKey) → Written → Option key.Part
  | .help => Written.orNull Written.text?
  | .fields => Fields.decode room

def SchemaKey.Holds : (key : SchemaKey) → Json → key.Part → Prop
  | .help => OrNull IsText
  | .fields => IsFields

theorem SchemaDraft.decode_eq_enter (room : Nat) :
    SchemaDraft.decode room = schemaLayout.enter (SchemaKey.decode room) := by
  funext draft key value
  cases key <;> exact Option.map_map _ _ _

theorem SchemaKey.decode_judges (room : Nat) (key : SchemaKey) :
    Judges room (key.decode room) key.Holds := by
  cases key with
  | help => exact orNull_judges (text?_judges room) fun text h => nomatch h
  | fields => exact (Setters.decode_judges room).2

theorem schemaRecord_short (count : Nat) (draft : SchemaDraft)
    (_ : count < schemaRecord.keys.length) :
    (schemaRecord.short count draft).toOption = if 0 ≤ count then some draft else none := by
  rw [if_pos (Nat.zero_le count)]
  rfl

/-- Whether the entries of a schema come to a draft. -/
def SchemaDraft.Matches (entries : String → Option Json) (draft : SchemaDraft) : Prop :=
  ∀ key : SchemaKey,
    Option.Rel key.Holds (entries (schemaRecord.word key)) (schemaLayout.part draft key)

theorem isSchema_iff {v : Json} {schema : Schema} :
    IsSchema v schema ↔ ∃ entries, HasEntries schemaRecord.words 0 v entries ∧
      ∃ draft, SchemaDraft.Matches entries draft ∧ draft.resolve = schema := by
  constructor
  · intro h
    cases h with
    | @bare entries _ hentries hhelp hfields =>
      obtain ⟨help, hrelHelp, rfl⟩ := hhelp.exists_rel
      have hmatches : SchemaDraft.Matches entries ⟨help, none⟩ := by
        intro key
        cases key with
        | help => exact hrelHelp
        | fields => exact hfields ▸ .none
      exact ⟨entries, hentries, _, hmatches, rfl⟩
    | @full members entries _ fields hentries hhelp hmembers hfields =>
      obtain ⟨help, hrelHelp, rfl⟩ := hhelp.exists_rel
      have hmatches : SchemaDraft.Matches entries ⟨help, some fields⟩ := by
        intro key
        cases key with
        | help => exact hrelHelp
        | fields => exact hmembers ▸ .some hfields
      exact ⟨entries, hentries, _, hmatches, rfl⟩
  · rintro ⟨entries, hentries, ⟨help, fields⟩, hmatches, rfl⟩
    have hhelp := isHelp_join (hmatches .help)
    have hfields : Option.Rel IsFields (entries "fields") fields := hmatches .fields
    generalize hentry : entries "fields" = entry at hfields
    cases hfields with
    | none => exact .bare hentries hhelp hentry
    | some hfields => exact .full hentries hhelp hentry hfields

theorem IsSchema.depth_ne_zero {v : Json} {schema : Schema} (h : IsSchema v schema) :
    v.depth ≠ 0 := by
  obtain ⟨entries, hentries, -⟩ := isSchema_iff.mp h
  exact hentries.depth_ne_zero

/-- Decoding finds the schema of a value when the value is one and does not nest too deep. -/
theorem Schema.decode_judges (room : Nat) : Judges room (Schema.decode room) IsSchema := by
  cases room with
  | zero =>
    intro value schema
    refine ⟨fun h => (nomatch h), fun h => (not_judges_zero IsSchema ?_ h).elim⟩
    exact fun v schema hschema => hschema.depth_ne_zero
  | succ room =>
    intro value schema
    rw [Schema.decode, SchemaDraft.decode_eq_enter, Option.map_eq_some_iff]
    simp only [Record.Layout.decode_eq_some_iff (fun key => SchemaKey.decode_judges room key)
      (Nat.zero_le 2) schemaRecord_short, isSchema_iff]
    constructor
    · rintro ⟨draft, ⟨hdepth, v, hv, entries, hentries, hmatches⟩, hresolve⟩
      exact ⟨hdepth, v, hv, entries, hentries, draft, hmatches, hresolve⟩
    · rintro ⟨hdepth, v, hv, entries, hentries, draft, hmatches, hresolve⟩
      exact ⟨draft, ⟨hdepth, v, hv, entries, hentries, hmatches⟩, hresolve⟩

end Setters

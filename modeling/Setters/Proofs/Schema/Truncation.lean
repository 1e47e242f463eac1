import Setters.Proofs.Json.Truncation
import Setters.Proofs.Schema.Decoding

/-!
# Schemas that end too early

`Schema.readJson_cuts`: a schema that is cut off anywhere is refused because it ends too early. A
word that is unknown, a path that is none or an entry that is missing never shows before the text
ends, since the readers look at a word once it is whole and at a record once it is closed.
-/

namespace Setters

open Json

variable {σ κ α : Type} {p : List Char}

/-! ### Records -/

theorem Record.readEntry_cuts (record : Record σ κ) {read : σ → κ → Reader σ}
    {entry : σ → κ → Written → Option σ}
    (h : ∀ draft key, Cuts (fun value => (entry draft key value).isSome) (read draft key))
    (draft : σ) (word : String) :
    CutsMember (fun value => (record.decodeEntry entry draft word value).isSome) fun cs =>
      match record.admissible draft word with
      | .error fault => .error (.pending fault cs)
      | .ok key =>
        match readColon cs with
        | .error halt => .error halt
        | .ok cs => read draft key cs := by
  simp only [Record.decodeEntry]
  cases record.admissible draft word with
  | error fault =>
    intro value between after text p _ _ _ haccept
    cases haccept
  | ok key => exact readColon_cuts (h draft key)

theorem Record.readJson_cuts (record : Record σ κ) {read : σ → κ → Reader σ}
    {entry : σ → κ → Written → Option σ}
    (hread : ∀ draft key, Decodes (read draft key) (entry draft key))
    (hcut : ∀ draft key, Cuts (fun value => (entry draft key value).isSome) (read draft key)) :
    Cuts (fun value => (record.decode entry value).isSome) (record.readJson read) := by
  intro value lead text p hlead hspells haccept hp
  obtain ⟨c, more, rfl, hc⟩ := hspells.begins
  unfold readJson
  rcases hp.lead hlead hc.not_blank with hskip | ⟨p', hskip, hp'⟩
  · rw [hskip]
    exact mismatch_nil record.wanted
  · rw [hskip]
    cases value with
    | object members =>
      obtain ⟨inner, htext, hmembers⟩ := hspells
      obtain ⟨rfl, rfl⟩ := List.cons.inj htext
      have hobject := readObject_cut_of_any (record.readEntry_decodes hread)
        (record.readEntry_cuts hcut) hmembers haccept hp'
      exact hobject.settle closeObject
    | array items =>
      obtain ⟨inner, htext, hitems⟩ := hspells
      obtain ⟨rfl, rfl⟩ := List.cons.inj htext
      have hrow : Written.SpellsItems (0 == 0) items inner := hitems
      exact (readRow_cut hread hcut record.short hrow haccept hp').settle closeArray
    | null | boolean | number | string => cases haccept

/-! ### Leaves -/

theorem TargetPath.readJson_cuts :
    Cuts (fun value => (TargetPath.decode value).isSome) TargetPath.readJson := by
  refine ((readString_cuts .string).mono fun value haccept => ?_).check fun cs halt hhalt => ?_
  · obtain ⟨path, hpath⟩ := Option.isSome_iff_exists.mp haccept
    obtain ⟨text, htext, -⟩ := Option.bind_eq_some_iff.mp hpath
    exact Option.isSome_iff_exists.mpr ⟨text, htext⟩
  · simp only [readJson, hhalt]

theorem readNull_cuts : Cuts (fun value => value = .null) readNull := by
  rintro _ lead text p hlead hspells rfl hp
  obtain rfl : text = ['n', 'u', 'l', 'l'] := hspells
  unfold readNull
  rcases hp.lead hlead (by decide) with hskip | ⟨p', hskip, hp'⟩
  · rw [hskip]
    exact mismatch_nil .unit
  · rw [hskip]
    exact readNull_word hp'

namespace ValueKind

theorem readWordKey_cut {lead : List Char} {key : List Piece} {word : String} (hlead : Blank lead)
    (hkey : textOf key = some word) (hp : Cut p (lead ++ quoted key)) :
    Truncated (readWordKey p) := by
  unfold readWordKey
  rcases hp.lead hlead (by decide) with hskip | ⟨p', hskip, hp'⟩
  · rw [hskip]
    exact .malformed rfl
  · rw [hskip]
    exact truncated_ofForm (readText_cut hkey hp') rfl

theorem exists_of_decodeMembers {members : List (List Piece × Written)}
    (h : (decodeMembers members).isSome) :
    ∃ key word kind, members = [(key, .null)] ∧ textOf key = some word ∧
      ofWord word = .ok kind := by
  obtain ⟨kind, hkind⟩ := Option.isSome_iff_exists.mp h
  cases members with
  | nil => cases hkind
  | cons member members =>
    obtain ⟨key, value⟩ := member
    simp only [decodeMembers, Option.bind_eq_some_iff, toOption_eq_some_iff] at hkind
    obtain ⟨word, hkey, kind', hword, _, hnull, hrest⟩ := hkind
    split at hrest
    · rename_i hempty
      obtain rfl := List.isEmpty_iff.mp hempty
      cases value with
      | null => exact ⟨key, word, kind', rfl, hkey, hword⟩
      | _ => cases hnull
    · cases hrest

theorem readJsonObject_cut {members : List (List Piece × Written)} {inner : List Char}
    (h : Written.SpellsMembers true members inner) (hkind : (decodeMembers members).isSome)
    (hp : Cut p (inner ++ ['\x7d'])) : Truncated (readJsonObject p) := by
  obtain ⟨key, word, kind, rfl, hkey, hword⟩ := exists_of_decodeMembers hkind
  obtain ⟨lead, between, after, text, more, rfl, hlead, hbetween, hafter, hnull, hmore⟩ := h
  have htext : lead ++ (quoted key ++ (between ++ ':' :: (after ++ (text ++ more)))) ++
      ['\x7d'] = (lead ++ quoted key) ++ ((between ++ ':' :: (after ++ text)) ++
        (more ++ ['\x7d'])) := by
    simp
  rw [htext] at hp
  rw [readJsonObject]
  rcases hp.append with hp' | ⟨p', rfl, hp'⟩
  · exact (readWordKey_cut hlead hkey hp').step fun halt hhalt => by simp only [hhalt]
  · have hquoted := readWordKey_quoted hlead key p'
    rw [hkey, ← List.append_assoc] at hquoted
    have hread : readWordKey (lead ++ quoted key ++ p') = .ok (word, p') :=
      eq_ok_of_toOption hquoted
    simp only [hread, hword, ofContent, settle]
    rcases hp'.append with hp'' | ⟨p'', rfl, hp''⟩
    · have hmember := readColon_cuts readNull_cuts .null between after text p' hbetween hafter
        hnull rfl hp''
      refine hmember.step fun halt hhalt => ?_
      cases hcolon : readColon p' with
      | error halt' =>
        simp only [hcolon] at hhalt
        exact congrArg _ (Except.error.inj hhalt)
      | ok rest =>
        simp only [hcolon] at hhalt
        simp only [hhalt]
    -- cut behind the null, where the closing bracket is still to come
    · have hdone := eq_ok_of_toOption (readNull_decodes .null after text p'' hafter hnull)
      simp only [List.append_assoc, List.cons_append, readColon_lead hbetween, hdone]
      rcases hp''.lead hmore (by decide) with hskip | ⟨_, -, hnil⟩
      · rw [hskip]
        exact .malformed rfl
      · exact absurd hnil not_cut_nil

theorem readJson_cuts (room : Nat) :
    Cuts (fun value => (decode room value).isSome) (readJson room) := by
  intro value lead text p hlead hspells haccept hp
  obtain ⟨c, more, rfl, hc⟩ := hspells.begins
  unfold readJson
  rcases hp.lead hlead hc.not_blank with hskip | ⟨p', hskip, hp'⟩
  · rw [hskip]
    exact .malformed rfl
  · rw [hskip]
    cases value with
    | string pieces =>
      obtain ⟨rfl, rfl⟩ := List.cons.inj hspells
      obtain ⟨kind, hkind⟩ := Option.isSome_iff_exists.mp haccept
      obtain ⟨word, hword, -⟩ := Option.bind_eq_some_iff.mp hkind
      have hread : Truncated (ofForm (readText p')) :=
        truncated_ofForm (readText_cut hword hp') rfl
      exact hread.step fun halt hhalt => by simp only [hhalt]
    | object members =>
      obtain ⟨inner, htext, hmembers⟩ := hspells
      obtain ⟨rfl, rfl⟩ := List.cons.inj htext
      cases room with
      | zero => cases haccept
      | succ room => exact readJsonObject_cut hmembers haccept hp'
    | null | boolean | number | array => cases room <;> cases haccept

end ValueKind

/-! ### Fields -/

/-- An entry that may be null is cut off like its value. -/
theorem Json.Cuts.entry {read : Reader α} {decode : Written → Option α}
    (h : Cuts (fun value => (decode value).isSome) read) (hend : Truncated (read []))
    (set : Option α → σ → σ) (draft : σ) :
    Cuts (fun value => (((Written.orNull decode value).map set).map (· draft)).isSome)
      fun cs => (readOption read cs).map fun (a, rest) => (set a draft, rest) := by
  refine ((h.orNull hend).map fun a => set a draft).mono fun value haccept => ?_
  rw [Option.isSome_map, Option.isSome_map] at haccept
  exact isSome_orNull haccept

theorem FieldDraft.readJson_cuts {readFields : Reader Fields}
    {decodeFields : Written → Option Fields}
    (h : Cuts (fun value => (decodeFields value).isSome) readFields)
    (hend : Truncated (readFields [])) (room : Nat) (draft : FieldDraft) (key : FieldKey) :
    Cuts (fun value => (decode decodeFields room draft key value).isSome)
      (readJson readFields room draft key) := by
  have hstring := readString_cuts .string
  cases key with
  | help =>
    exact hstring.entry (mismatch_nil .string)
      (fun text draft => { draft with help := some text }) draft
  | fields => exact h.entry hend (fun fields draft => { draft with fields := some fields }) draft
  | parameter =>
    exact hstring.entry (mismatch_nil .string)
      (fun text draft => { draft with parameter := some text }) draft
  | type =>
    exact (ValueKind.readJson_cuts room).entry (.malformed rfl)
      (fun kind draft => { draft with type := some kind }) draft
  | target =>
    exact TargetPath.readJson_cuts.entry (.malformed rfl)
      (fun path draft => { draft with target := some path }) draft

theorem OrderedField.readJson_cuts {room : Nat}
    (h : Cuts (fun value => (Fields.decode room value).isSome) (Fields.readJson room))
    (hend : Truncated (Fields.readJson room [])) :
    Cuts (fun value => (OrderedField.decode (room + 1) value).isSome)
      (OrderedField.readJson (room + 1)) := by
  have hdecodes := FieldDraft.readJson_decodes (Setters.readJson_decodes room).2 room
  have hrecord := fieldRecord.readJson_cuts hdecodes (FieldDraft.readJson_cuts h hend room)
  refine (hrecord.mono fun value haccept => ?_).check fun cs halt hhalt => ?_
  · obtain ⟨field, hfield⟩ := Option.isSome_iff_exists.mp haccept
    obtain ⟨draft, hdraft, -⟩ := Option.bind_eq_some_iff.mp hfield
    exact Option.isSome_iff_exists.mpr ⟨draft, hdraft⟩
  · simp only [readJson, hhalt]

theorem Fields.readJson_nil (room : Nat) : Truncated (Fields.readJson room []) := by
  cases room <;> exact mismatch_nil .map

theorem Fields.readJson_cuts {room : Nat}
    (h : Cuts (fun value => (OrderedField.decode room value).isSome) (OrderedField.readJson room)) :
    Cuts (fun value => (Fields.decode (room + 1) value).isSome) (Fields.readJson (room + 1)) := by
  intro value lead text p hlead hspells haccept hp
  cases value with
  | object members =>
    obtain ⟨inner, rfl, hmembers⟩ := hspells
    have hstep := readField_decodes (Setters.readJson_decodes room).1
    have hcut := fun (fields : Fields) name => readColon_cuts ((h.map (fields.insert name)).mono
      fun value (haccept : ((OrderedField.decode room value).map (fields.insert name)).isSome) =>
        by simpa using haccept)
    unfold readJson
    rcases hp.lead hlead (by decide) with hskip | ⟨p', hskip, hp'⟩
    · simp only [hskip]
      exact mismatch_nil .map
    · simp only [hskip]
      exact (readObject_cut_of_any hstep hcut hmembers haccept hp').settle closeObject
  | null | boolean | number | string | array => cases haccept

/-- Fields that are cut off anywhere end too early, however many levels are left. -/
theorem readJson_cuts (room : Nat) :
    Cuts (fun value => (OrderedField.decode room value).isSome) (OrderedField.readJson room) ∧
      Cuts (fun value => (Fields.decode room value).isSome) (Fields.readJson room) := by
  induction room with
  | zero =>
    constructor
    · intro value lead text p _ _ haccept
      cases haccept
    · intro value lead text p _ _ haccept
      cases value <;> cases haccept
  | succ room ih =>
    exact ⟨OrderedField.readJson_cuts ih.2 (Fields.readJson_nil room), Fields.readJson_cuts ih.1⟩

/-! ### Schemas -/

theorem SchemaDraft.readJson_cuts (room : Nat) (draft : SchemaDraft) (key : SchemaKey) :
    Cuts (fun value => (decode room draft key value).isSome) (readJson room draft key) := by
  cases key with
  | help =>
    exact (readString_cuts .string).entry (mismatch_nil .string)
      (fun text draft => { draft with help := some text }) draft
  | fields =>
    have hfields := (Setters.readJson_cuts room).2.map fun fields =>
      { draft with fields := some fields }
    refine hfields.mono fun value haccept => ?_
    simpa [decode, update] using haccept

/-- A schema that is cut off anywhere ends too early. -/
theorem Schema.readJson_cuts (room : Nat) :
    Cuts (fun value => (Schema.decode room value).isSome) (Schema.readJson room) := by
  cases room with
  | zero =>
    intro value lead text p _ _ haccept
    cases haccept
  | succ room =>
    have hrecord := schemaRecord.readJson_cuts (SchemaDraft.readJson_decodes room)
      (SchemaDraft.readJson_cuts room)
    refine (hrecord.map SchemaDraft.resolve).mono fun value haccept => ?_
    simpa [Schema.decode] using haccept

end Setters

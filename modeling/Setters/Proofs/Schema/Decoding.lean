import Setters.Proofs.Json.Reading
import Setters.Schema.JsonReader

/-!
# Decoding written schemas

What the readers of schemas make of a value, without its text: `Schema.decode` goes through a
written value the way the readers go through the characters. `Schema.ofJsonText_toOption` says
that every document of a value is read as the schema that is decoded from the value.
-/

namespace Setters

open Json

variable {σ κ α : Type}

/-! ### Records -/

def Record.decodeEntry (record : Record σ κ) (entry : σ → κ → Written → Option σ) (draft : σ)
    (word : String) (value : Written) : Option σ :=
  (record.admissible draft word).toOption.bind fun key => entry draft key value

def Record.decode (record : Record σ κ) (entry : σ → κ → Written → Option σ) :
    Written → Option σ
  | .object members => members.foldlM (decodeMember (record.decodeEntry entry)) record.start
  | .array items => decodeRow entry record.short record.keys 0 record.start items
  | _ => none

theorem Record.readEntry_decodes (record : Record σ κ) {read : σ → κ → Reader σ}
    {entry : σ → κ → Written → Option σ}
    (h : ∀ draft key, Decodes (read draft key) (entry draft key)) :
    DecodesMember
      (fun draft word cs =>
        match record.admissible draft word with
        | .error fault => .error (.pending fault cs)
        | .ok key =>
          match readColon cs with
          | .error halt => .error halt
          | .ok cs => read draft key cs)
      (record.decodeEntry entry) := by
  intro draft word value between after text rest hbetween hafter hspells
  simp only [Record.decodeEntry]
  cases record.admissible draft word with
  | error fault => rfl
  | ok key =>
    simp only [readColon_lead hbetween]
    exact h draft key value after text rest hafter hspells

theorem Record.readJson_decodes (record : Record σ κ) {read : σ → κ → Reader σ}
    {entry : σ → κ → Written → Option σ}
    (h : ∀ draft key, Decodes (read draft key) (entry draft key)) :
    Decodes (record.readJson read) (record.decode entry) := by
  intro value lead text rest hlead hspells
  obtain ⟨c, more, rfl, hc⟩ := hspells.begins
  rw [readJson, List.cons_append, skipBlanks_value hlead hc]
  split
  · rename_i heq
    obtain ⟨rfl, rfl⟩ := List.cons.inj heq
    obtain ⟨members, rfl⟩ := hc.object_of
    obtain ⟨inner, htext, hinner⟩ := hspells
    obtain rfl := (List.cons.inj htext).2
    rw [List.append_assoc, toOption_settle]
    exact readObject_spells (record.readEntry_decodes h) hinner record.start rest
  · rename_i heq
    obtain ⟨rfl, rfl⟩ := List.cons.inj heq
    obtain ⟨items, rfl⟩ := hc.array_of
    obtain ⟨inner, htext, hinner⟩ := hspells
    obtain rfl := (List.cons.inj htext).2
    have hitems : Written.SpellsItems (0 == 0) items inner := hinner
    rw [List.append_assoc, toOption_settle]
    exact readRow_spells h record.short hitems record.start rest
  · rename_i hobject harray
    have hnone : record.decode entry value = none := by
      cases value <;> try rfl
      · obtain rfl : c = '[' := hc
        exact absurd rfl (harray _)
      · obtain rfl : c = '\x7b' := hc
        exact absurd rfl (hobject _)
    rw [mismatch_toOption, hnone, Option.map_none]

theorem Record.readShut_toOption (record : Record σ κ) (cs : List Char) :
    (record.readShut cs : Except Halt (α × List Char)).toOption = none := by
  unfold readShut
  split
  · rfl
  · rfl
  · exact mismatch_toOption record.wanted _

/-! ### Leaves -/

def TargetPath.decode (value : Written) : Option TargetPath :=
  value.text?.bind fun text => (ofText text).toOption

theorem TargetPath.readJson_decodes : Decodes TargetPath.readJson TargetPath.decode := by
  refine (readString_decodes .string).check ofText ?_ ?_
  · intro cs text rest h
    simp only [readJson, h]
  · intro cs halt h
    simp only [readJson, h]

def decodeNull : Written → Option Unit
  | .null => some ()
  | _ => none

theorem readNull_decodes : Decodes readNull decodeNull := by
  intro value lead text rest hlead hspells
  obtain ⟨c, more, rfl, hc⟩ := hspells.begins
  rw [readNull, List.cons_append, skipBlanks_value hlead hc]
  split
  · rename_i heq
    obtain ⟨rfl, rfl⟩ := List.cons.inj heq
    obtain rfl := hc.null_of
    obtain rfl : more = ['u', 'l', 'l'] := (List.cons.inj hspells).2
    rw [toOption_ofForm, readWord_append]
    rfl
  · rename_i hnull
    have hnone : decodeNull value = none := by
      cases value <;> try rfl
      obtain rfl : c = 'n' := hc
      exact absurd rfl (hnull _)
    rw [mismatch_toOption, hnone, Option.map_none]

namespace ValueKind

/-- The kind of an object: its word is the only key, beside null. -/
def decodeMembers : List (List Piece × Written) → Option ValueKind
  | [] => none
  | (key, value) :: members =>
    (textOf key).bind fun word => (ofWord word).toOption.bind fun kind =>
      (decodeNull value).bind fun () => if members.isEmpty then some kind else none

/-- The kind of a word, or of an object in place of it. -/
def decode : Nat → Written → Option ValueKind
  | _, .string pieces => (textOf pieces).bind fun word => (ofWord word).toOption
  | _ + 1, .object members => decodeMembers members
  | _, _ => none

theorem readWordKey_quoted {lead : List Char} (h : Blank lead) (key : List Piece)
    (rest : List Char) :
    (readWordKey (lead ++ (quoted key ++ rest))).toOption = (textOf key).map (·, rest) := by
  have hread := readText_quoted key rest
  rw [readWordKey, quoted, List.cons_append, skipBlanks_lead h (by decide)]
  exact (toOption_ofForm _).trans hread

theorem readJsonObject_spells {members : List (List Piece × Written)} {inner : List Char}
    (h : Written.SpellsMembers true members inner) (rest : List Char) :
    (readJsonObject (inner ++ '\x7d' :: rest)).toOption =
      (decodeMembers members).map (·, rest) := by
  cases members with
  | nil =>
    rw [readJsonObject, readWordKey, skipBlanks_lead h (by decide)]
    rfl
  | cons member members =>
    obtain ⟨key, value⟩ := member
    obtain ⟨lead, between, after, text, more, rfl, hlead, hbetween, hafter, hvalue, hmore⟩ := h
    have hcut : lead ++ (quoted key ++ (between ++ ':' :: (after ++ (text ++ more)))) ++
        '\x7d' :: rest = lead ++ (quoted key ++
          (between ++ ':' :: (after ++ (text ++ (more ++ '\x7d' :: rest))))) := by
      simp
    have hkey := readWordKey_quoted hlead key
      (between ++ ':' :: (after ++ (text ++ (more ++ '\x7d' :: rest))))
    have hnull := readNull_decodes value after text (more ++ '\x7d' :: rest) hafter hvalue
    rw [hcut, readJsonObject, decodeMembers]
    rcases outcome_cases hkey with ⟨htext, halt, hhalt⟩ | ⟨word, htext, hread⟩
    · rw [hhalt, htext]
      rfl
    · simp only [hread, htext, Option.bind_some]
      cases ofWord word with
      | error fault => rfl
      | ok kind =>
        simp only [ofContent, settle, readColon_lead hbetween]
        rcases outcome_cases hnull with ⟨hnone, halt, hhalt⟩ | ⟨_, hsome, hread'⟩
        · rw [hhalt, hnone]
          rfl
        · simp only [hread', hsome]
          cases members with
          | nil =>
            rw [skipBlanks_lead hmore (by decide)]
            rfl
          | cons member members =>
            obtain ⟨_, _, _, _, _, rfl, ⟨before, _, rfl, hbefore, -⟩, -⟩ := hmore
            simp only [List.append_assoc, List.cons_append]
            rw [skipBlanks_lead hbefore (by decide)]
            rfl

theorem readJson_decodes (room : Nat) : Decodes (readJson room) (decode room) := by
  intro value lead text rest hlead hspells
  obtain ⟨c, more, rfl, hc⟩ := hspells.begins
  rw [readJson, List.cons_append, skipBlanks_value hlead hc]
  split
  · rename_i heq
    cases heq
  · rename_i heq
    obtain ⟨rfl, rfl⟩ := List.cons.inj heq
    obtain ⟨pieces, rfl⟩ := hc.string_of
    have hread : (ofForm (readText (more ++ rest))).toOption = (textOf pieces).map (·, rest) :=
      (toOption_ofForm _).trans hspells.readText
    rw [decode]
    rcases outcome_cases hread with ⟨htext, halt, hhalt⟩ | ⟨word, htext, hok⟩
    · rw [hhalt, htext]
      rfl
    · simp only [hok, htext, Option.bind_some]
      rw [toOption_settle, toOption_ofContent]
  · rename_i heq
    obtain ⟨rfl, rfl⟩ := List.cons.inj heq
    obtain ⟨members, rfl⟩ := hc.object_of
    obtain ⟨inner, htext, hinner⟩ := hspells
    obtain rfl := (List.cons.inj htext).2
    cases room with
    | zero => rfl
    | succ room =>
      rw [List.append_assoc]
      exact readJsonObject_spells hinner rest
  · rename_i hstring hobject heq
    obtain ⟨rfl, rfl⟩ := List.cons.inj heq
    have hnone : decode room value = none := by
      cases value <;> try rfl
      · exact (hstring hc).elim
      · exact (hobject hc).elim
    rw [hnone]
    rfl

end ValueKind

/-! ### Fields -/

def FieldDraft.update (decodeFields : Written → Option Fields) (room : Nat) (value : Written) :
    FieldKey → Option (FieldDraft → FieldDraft)
  | .help => (Written.orNull Written.text? value).map fun text draft => { draft with help := some text }
  | .fields => (Written.orNull decodeFields value).map fun fields draft =>
    { draft with fields := some fields }
  | .parameter => (Written.orNull Written.text? value).map fun text draft =>
    { draft with parameter := some text }
  | .type => (Written.orNull (ValueKind.decode room) value).map fun kind draft =>
    { draft with type := some kind }
  | .target => (Written.orNull TargetPath.decode value).map fun path draft =>
    { draft with target := some path }

def FieldDraft.decode (decodeFields : Written → Option Fields) (room : Nat) (draft : FieldDraft)
    (key : FieldKey) (value : Written) : Option FieldDraft :=
  (update decodeFields room value key).map (· draft)

theorem FieldDraft.readJson_decodes {readFields : Reader Fields}
    {decodeFields : Written → Option Fields} (h : Decodes readFields decodeFields) (room : Nat)
    (draft : FieldDraft) (key : FieldKey) :
    Decodes (readJson readFields room draft key) (decode decodeFields room draft key) := by
  have hstring := (readString_decodes .string).orNull
  cases key with
  | help => exact hstring.entry (fun text draft => { draft with help := some text }) draft
  | fields => exact h.orNull.entry (fun fields draft => { draft with fields := some fields }) draft
  | parameter => exact hstring.entry (fun text draft => { draft with parameter := some text }) draft
  | type =>
    exact (ValueKind.readJson_decodes room).orNull.entry
      (fun kind draft => { draft with type := some kind }) draft
  | target =>
    exact TargetPath.readJson_decodes.orNull.entry
      (fun path draft => { draft with target := some path }) draft

mutual

def OrderedField.decode : Nat → Written → Option OrderedField
  | 0, _ => none
  | room + 1, value =>
    (fieldRecord.decode (FieldDraft.decode (Fields.decode room) room) value).bind
      fun draft => draft.resolve.toOption

def Fields.decode : Nat → Written → Option Fields
  | room + 1, .object members =>
    members.foldlM
      (decodeMember fun fields name value =>
        (OrderedField.decode room value).map fun field => fields.insert name field)
      Fields.empty
  | _, _ => none

end

theorem OrderedField.readJson_succ {room : Nat}
    (h : Decodes (Fields.readJson room) (Fields.decode room)) :
    Decodes (OrderedField.readJson (room + 1)) (OrderedField.decode (room + 1)) := by
  have hrecord := fieldRecord.readJson_decodes (FieldDraft.readJson_decodes h room)
  refine hrecord.check FieldDraft.resolve ?_ ?_
  · intro cs draft rest hread
    simp only [readJson, hread]
  · intro cs halt hread
    simp only [readJson, hread]

theorem Fields.readJson_zero (cs : List Char) : (Fields.readJson 0 cs).toOption = none := by
  unfold Fields.readJson
  split
  · rfl
  · exact mismatch_toOption .map _

theorem Fields.readField_decodes {room : Nat}
    (h : Decodes (OrderedField.readJson room) (OrderedField.decode room)) :
    DecodesMember
      (fun (fields : Fields) name cs =>
        match readColon cs with
        | .error halt => .error halt
        | .ok cs =>
          (OrderedField.readJson room cs).map fun (field, rest) => (fields.insert name field, rest))
      fun fields name value =>
        (OrderedField.decode room value).map fun field => fields.insert name field := by
  intro fields name value between after text rest hbetween hafter hspells
  simp only [readColon_lead hbetween]
  exact h.map (fields.insert name) value after text rest hafter hspells

theorem Fields.readJson_succ {room : Nat}
    (h : Decodes (OrderedField.readJson room) (OrderedField.decode room)) :
    Decodes (Fields.readJson (room + 1)) (Fields.decode (room + 1)) := by
  intro value lead text rest hlead hspells
  obtain ⟨c, more, rfl, hc⟩ := hspells.begins
  simp only [Fields.readJson, List.cons_append, skipBlanks_value hlead hc]
  split
  · rename_i heq
    obtain ⟨rfl, rfl⟩ := List.cons.inj heq
    obtain ⟨members, rfl⟩ := hc.object_of
    obtain ⟨inner, htext, hinner⟩ := hspells
    obtain rfl := (List.cons.inj htext).2
    rw [List.append_assoc, toOption_settle]
    exact readObject_spells (readField_decodes h) hinner Fields.empty rest
  · rename_i hobject
    have hnone : Fields.decode (room + 1) value = none := by
      cases value <;> try rfl
      obtain rfl : c = '\x7b' := hc
      exact absurd rfl (hobject _)
    rw [mismatch_toOption, hnone, Option.map_none]

/-- Fields are read as they are decoded, however many levels are left. -/
theorem readJson_decodes (room : Nat) :
    Decodes (OrderedField.readJson room) (OrderedField.decode room) ∧
      Decodes (Fields.readJson room) (Fields.decode room) := by
  induction room with
  | zero =>
    constructor
    · intro value lead text rest _ _
      exact fieldRecord.readShut_toOption _
    · intro value lead text rest _ _
      exact Fields.readJson_zero _
  | succ room ih => exact ⟨OrderedField.readJson_succ ih.2, Fields.readJson_succ ih.1⟩

/-! ### Schemas -/

def SchemaDraft.update (room : Nat) (value : Written) :
    SchemaKey → Option (SchemaDraft → SchemaDraft)
  | .help => (Written.orNull Written.text? value).map fun text draft =>
    { draft with help := some text }
  | .fields => (Fields.decode room value).map fun fields draft =>
    { draft with fields := some fields }

def SchemaDraft.decode (room : Nat) (draft : SchemaDraft) (key : SchemaKey) (value : Written) :
    Option SchemaDraft :=
  (update room value key).map (· draft)

def Schema.decode : Nat → Written → Option Schema
  | 0, _ => none
  | room + 1, value =>
    (schemaRecord.decode (SchemaDraft.decode room) value).map SchemaDraft.resolve

theorem SchemaDraft.readJson_decodes (room : Nat) (draft : SchemaDraft) (key : SchemaKey) :
    Decodes (readJson room draft key) (decode room draft key) := by
  cases key with
  | help =>
    exact (readString_decodes .string).orNull.entry
      (fun text draft => { draft with help := some text }) draft
  | fields =>
    exact (Setters.readJson_decodes room).2.entry
      (fun fields draft => { draft with fields := some fields }) draft

theorem Schema.readJson_decodes (room : Nat) :
    Decodes (Schema.readJson room) (Schema.decode room) := by
  cases room with
  | zero =>
    intro value lead text rest _ _
    exact schemaRecord.readShut_toOption _
  | succ room =>
    exact (schemaRecord.readJson_decodes (SchemaDraft.readJson_decodes room)).map
      SchemaDraft.resolve

/-- A document of a value is read as the value is decoded. -/
theorem Schema.ofJsonText_toOption {value : Written} {text : String} (h : value.IsDocument text) :
    (Schema.ofJsonText text).toOption = Schema.decode maxDepth value :=
  readDocument_toOption (Schema.readJson_decodes maxDepth) h

end Setters

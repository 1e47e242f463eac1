import Setters.Proofs.Json.Accepted
import Setters.Proofs.Schema.Judging

/-!
# Which texts are schemas

`Schema.ofJsonText_eq_ok_iff`: a text is read as a schema exactly when it is a JSON document of a
value that the grammar has as that schema, and its brackets nest at most 127 deep. Reading in one
pass comes to the same as writing down the value first and judging it then.

That every such document is read follows from how values are decoded. For the converse the readers
of schemas are shown to take off a text only when it is that of a value.
-/

namespace Setters

open Json

variable {σ κ α : Type}

/-! ### Records -/

theorem Record.readJson_takes (record : Record σ κ) {entry : σ → κ → Reader σ}
    (h : ∀ draft key, Takes (entry draft key)) : Takes (record.readJson entry) := by
  intro cs draft rest hread
  rw [readJson] at hread
  split at hread
  · rename_i hskip
    refine .of_readObject hskip (fun draft word => ?_) (eq_ok_of_settle hread)
    cases record.admissible draft word with
    | error fault =>
      intro cs state rest hmember
      cases hmember
    | ok key => exact readColon_takes (h draft key)
  · rename_i hskip
    exact .of_readRow hskip h (eq_ok_of_settle hread)
  · exact absurd hread mismatch_ne_ok

theorem Record.readShut_takes (record : Record σ κ) : Takes (record.readShut : Reader α) := by
  intro cs a rest hread
  have hnone := record.readShut_toOption (α := α) cs
  rw [hread] at hnone
  cases hnone

/-! ### Leaves -/

theorem TargetPath.readJson_takes : Takes TargetPath.readJson := by
  refine (readString_takes .string).check fun cs path rest hread => ?_
  unfold readJson at hread
  split at hread
  · cases hread
  · rename_i text rest' hstring
    obtain ⟨-, rfl⟩ := eq_of_ofContent hread
    exact ⟨text, hstring⟩

theorem readNull_takes : Takes readNull := by
  intro cs u rest hread
  rw [readNull] at hread
  split at hread
  · rename_i hskip
    have hfront := hskip.trans (cons_eq_of_readWord_null hread)
    exact .of_skipBlanks .null hfront rfl
  · exact absurd hread mismatch_ne_ok

namespace ValueKind

theorem exists_of_readWordKey {cs rest : List Char} {word : String}
    (h : readWordKey cs = .ok (word, rest)) :
    ∃ lead key, Blank lead ∧ cs = lead ++ (quoted key ++ rest) := by
  rw [readWordKey] at h
  split at h
  · cases h
  · rename_i hskip
    obtain ⟨lead, hlead, rfl⟩ := exists_blank_of_skipBlanks hskip
    obtain ⟨key, hkey⟩ := exists_pieces_of_readText (eq_ok_of_ofForm h)
    exact ⟨lead, key, hlead, by rw [hkey]⟩
  · cases h
  · cases h

theorem exists_members_of_readJsonObject {cs rest : List Char} {kind : ValueKind}
    (h : readJsonObject cs = .ok (kind, rest)) :
    ∃ members inner, cs = inner ++ '\x7d' :: rest ∧ Written.SpellsMembers true members inner := by
  rw [readJsonObject] at h
  split at h
  · cases h
  · rename_i hkey
    split at h
    · cases h
    · rename_i hkind
      obtain ⟨-, rfl⟩ := eq_of_ofContent (eq_ok_of_settle hkind)
      split at h
      · cases h
      · rename_i hcolon
        split at h
        · cases h
        · rename_i hnull
          split at h
          · cases h
          · rename_i hskip
            obtain ⟨-, rfl⟩ := Prod.mk.inj (Except.ok.inj h)
            obtain ⟨lead, key, hlead, rfl⟩ := exists_of_readWordKey hkey
            obtain ⟨between, hbetween, rfl⟩ := exists_blank_of_readColon hcolon
            obtain ⟨after, value, text, rfl, hafter, hvalue⟩ := readNull_takes hnull
            obtain ⟨close, hclose, rfl⟩ := exists_blank_of_skipBlanks hskip
            refine ⟨[(key, value)], _, ?_, lead, between, after, text, close, rfl, hlead, hbetween,
              hafter, hvalue, hclose⟩
            simp only [List.append_assoc, List.cons_append]
          · cases h

theorem readJson_takes (room : Nat) : Takes (readJson room) := by
  intro cs kind rest hread
  rw [readJson] at hread
  split at hread
  · cases hread
  · rename_i hskip
    split at hread
    · cases hread
    · rename_i hword
      obtain ⟨-, rfl⟩ := eq_of_ofContent (eq_ok_of_settle hread)
      obtain ⟨pieces, hpieces⟩ := exists_pieces_of_readText (eq_ok_of_ofForm hword)
      exact .of_skipBlanks (.string pieces) (hskip.trans hpieces) rfl
  · rename_i hskip
    split at hread
    · cases hread
    · obtain ⟨members, inner, rfl, hmembers⟩ := exists_members_of_readJsonObject hread
      exact .of_object hskip hmembers
  · cases hread

end ValueKind

/-! ### Fields -/

theorem FieldDraft.readJson_takes {readFields : Reader Fields} (h : Takes readFields) (room : Nat)
    (draft : FieldDraft) (key : FieldKey) : Takes (readJson readFields room draft key) := by
  have hstring := (readString_takes .string).orNull
  have hkind := (ValueKind.readJson_takes room).orNull
  cases key with
  | help => exact hstring.map fun text => { draft with help := some text }
  | fields => exact h.orNull.map fun fields => { draft with fields := some fields }
  | parameter => exact hstring.map fun text => { draft with parameter := some text }
  | type => exact hkind.map fun kind => { draft with type := some kind }
  | target =>
    exact TargetPath.readJson_takes.orNull.map fun path => { draft with target := some path }

theorem OrderedField.readJson_takes {room : Nat} (h : Takes (Fields.readJson room)) :
    Takes (OrderedField.readJson (room + 1)) := by
  have hrecord := fieldRecord.readJson_takes (FieldDraft.readJson_takes h room)
  intro cs field rest hread
  unfold readJson at hread
  split at hread
  · cases hread
  · rename_i hdraft
    obtain ⟨-, rfl⟩ := eq_of_ofContent hread
    exact hrecord hdraft

theorem Fields.readJson_takes {room : Nat} (h : Takes (OrderedField.readJson room)) :
    Takes (Fields.readJson (room + 1)) := by
  intro cs fields rest hread
  unfold readJson at hread
  dsimp only at hread
  split at hread
  · rename_i hskip
    have hstep := fun (fields : Fields) name => readColon_takes (h.map (fields.insert name))
    exact .of_readObject hskip hstep (eq_ok_of_settle hread)
  · exact absurd hread mismatch_ne_ok

/-- Fields are taken off as they are written, however many levels are left. -/
theorem readJson_takes (room : Nat) :
    Takes (OrderedField.readJson room) ∧ Takes (Fields.readJson room) := by
  induction room with
  | zero =>
    constructor
    · intro cs field rest hread
      unfold OrderedField.readJson at hread
      exact fieldRecord.readShut_takes hread
    · intro cs fields rest hread
      have hnone := Fields.readJson_zero cs
      rw [hread] at hnone
      cases hnone
  | succ room ih => exact ⟨OrderedField.readJson_takes ih.2, Fields.readJson_takes ih.1⟩

/-! ### Schemas -/

theorem SchemaDraft.readJson_takes (room : Nat) (draft : SchemaDraft) (key : SchemaKey) :
    Takes (readJson room draft key) := by
  have hfields := (Setters.readJson_takes room).2
  cases key with
  | help =>
    exact (readString_takes .string).orNull.map fun text => { draft with help := some text }
  | fields => exact hfields.map fun fields => { draft with fields := some fields }

namespace Schema

theorem readJson_takes (room : Nat) : Takes (readJson room) := by
  cases room with
  | zero => exact schemaRecord.readShut_takes
  | succ room =>
    exact (schemaRecord.readJson_takes (SchemaDraft.readJson_takes room)).map SchemaDraft.resolve

/-- The loader takes exactly the documents that the grammar has as schemas, and makes of each the
schema that it is. -/
theorem ofJsonText_eq_ok_iff (text : String) (schema : Schema) :
    Schema.ofJsonText text = .ok schema ↔
      ∃ document : Written, document.IsDocument text ∧ document.depth ≤ 127 ∧
        ∃ v, document.value? = some v ∧ IsSchema v schema := by
  rw [← toOption_eq_some_iff]
  constructor
  · intro hread
    obtain ⟨document, hdocument⟩ :=
      exists_isDocument_of_ok (readJson_takes maxDepth) (toOption_eq_some_iff.mp hread)
    rw [ofJsonText_toOption hdocument] at hread
    exact ⟨document, hdocument, (decode_judges maxDepth document schema).mp hread⟩
  · rintro ⟨document, hdocument, hschema⟩
    rw [ofJsonText_toOption hdocument]
    exact (decode_judges maxDepth document schema).mpr hschema

end Schema

end Setters

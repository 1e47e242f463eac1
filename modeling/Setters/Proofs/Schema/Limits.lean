import Setters.Proofs.Json.Limits
import Setters.Schema.JsonReader

/-!
# The limit on nesting of schemas

The readers of schemas do with any number of levels what they do with more, unless they find that
brackets nest too deep: `Schema.readJson_curbs`.
-/

namespace Setters

open Json

variable {σ κ α : Type}

/-! ### Records -/

theorem Record.readJson_curbs (record : Record σ κ) {entry entry' : σ → κ → Reader σ}
    (h : ∀ draft key, Curbs (entry draft key) (entry' draft key)) :
    Curbs (record.readJson entry) (record.readJson entry') := by
  intro cs
  unfold readJson
  split
  · refine (readObject_curbs (fun draft word => ?_) record.start _).settle closeObject
    cases record.admissible draft word with
    | error fault => exact .refl _
    | ok key => exact readColon_curbs (h draft key)
  · exact (readRow_curbs h record.short record.keys 0 record.start _).settle closeArray
  · exact .refl _

theorem mismatch_eq_error (wanted : Wanted) (cs : List Char) :
    ∃ halt, ∀ {α : Type}, (mismatch wanted cs : Except Halt α) = .error halt := by
  unfold mismatch
  split
  · exact ⟨_, rfl⟩
  · exact ⟨_, rfl⟩
  · split
    · exact ⟨_, rfl⟩
    · exact ⟨_, rfl⟩

/-- Where no bracket may open any more, what is no record is refused as it is elsewhere. -/
theorem Record.readShut_curbs (record : Record σ κ) (entry : σ → κ → Reader σ) {read : Reader α}
    (h : ∀ cs halt, record.readJson entry cs = .error halt → read cs = .error halt) :
    Curbs record.readShut read := by
  intro cs
  unfold readShut
  split
  · exact .inr ⟨_, rfl⟩
  · exact .inr ⟨_, rfl⟩
  · rename_i hobject harray
    obtain ⟨halt, hhalt⟩ := mismatch_eq_error record.wanted (skipBlanks cs)
    have hrecord : record.readJson entry cs = .error halt := by
      unfold readJson
      split
      · rename_i hskip
        exact (hobject _ hskip).elim
      · rename_i hskip
        exact (harray _ hskip).elim
      · exact hhalt
    rw [h cs halt hrecord, hhalt]
    exact .refl _

/-! ### Kinds -/

theorem ValueKind.readJson_curbs {room room' : Nat} (h : room ≤ room') :
    Curbs (readJson room) (readJson room') := by
  intro cs
  unfold readJson
  split
  · exact .refl _
  · exact .refl _
  · cases room with
    | zero => exact .inr ⟨_, rfl⟩
    | succ room =>
      obtain ⟨room', rfl⟩ := Nat.exists_eq_add_of_le' h
      exact .refl _
  · exact .refl _

/-! ### Fields -/

theorem FieldDraft.readJson_curbs {readFields readFields' : Reader Fields}
    (hfields : Curbs readFields readFields') {room room' : Nat} (h : room ≤ room')
    (draft : FieldDraft) (key : FieldKey) :
    Curbs (readJson readFields room draft key) (readJson readFields' room' draft key) := by
  have hkind := (ValueKind.readJson_curbs h).orNull
  cases key with
  | help => exact .refl _
  | fields => exact hfields.orNull.map fun fields => { draft with fields := some fields }
  | parameter => exact .refl _
  | type => exact hkind.map fun kind => { draft with type := some kind }
  | target => exact .refl _

theorem OrderedField.readJson_curbs {room room' : Nat} (h : room ≤ room')
    (hfields : Curbs (Fields.readJson room) (Fields.readJson room')) :
    Curbs (OrderedField.readJson (room + 1)) (OrderedField.readJson (room' + 1)) := by
  have hrecord := fieldRecord.readJson_curbs (FieldDraft.readJson_curbs hfields h)
  intro cs
  unfold readJson
  rcases hrecord cs with heq | ⟨left, hdeep⟩
  · rw [heq]
    exact .refl _
  · rw [hdeep]
    exact .inr ⟨left, rfl⟩

theorem OrderedField.readShut_curbs (room : Nat) :
    Curbs (OrderedField.readJson 0) (OrderedField.readJson room) := by
  cases room with
  | zero => exact .refl _
  | succ room =>
    rw [readJson]
    refine fieldRecord.readShut_curbs (FieldDraft.readJson (Fields.readJson room) room)
      fun cs halt hrecord => ?_
    simp only [readJson, hrecord]

theorem Fields.readJson_curbs {room room' : Nat}
    (h : Curbs (OrderedField.readJson room) (OrderedField.readJson room')) :
    Curbs (Fields.readJson (room + 1)) (Fields.readJson (room' + 1)) := by
  intro cs
  unfold readJson
  dsimp only
  split
  · have hstep := fun (fields : Fields) name => readColon_curbs (h.map (fields.insert name))
    exact (readObject_curbs hstep Fields.empty _).settle closeObject
  · exact .refl _

theorem Fields.readShut_curbs (room : Nat) :
    Curbs (Fields.readJson 0) (Fields.readJson room) := by
  cases room with
  | zero => exact .refl _
  | succ room =>
    intro cs
    unfold readJson
    dsimp only
    split
    · exact .inr ⟨_, rfl⟩
    · exact .refl _

/-- Fields are read with less levels as with more, up to the limit. -/
theorem readJson_curbs (room room' : Nat) (h : room ≤ room') :
    Curbs (OrderedField.readJson room) (OrderedField.readJson room') ∧
      Curbs (Fields.readJson room) (Fields.readJson room') := by
  induction room generalizing room' with
  | zero => exact ⟨OrderedField.readShut_curbs room', Fields.readShut_curbs room'⟩
  | succ room ih =>
    obtain ⟨room', rfl⟩ := Nat.exists_eq_succ_of_ne_zero (Nat.ne_zero_of_lt h)
    have hle := Nat.le_of_succ_le_succ h
    obtain ⟨hfield, hfields⟩ := ih room' hle
    exact ⟨OrderedField.readJson_curbs hle hfields, Fields.readJson_curbs hfield⟩

/-! ### Schemas -/

theorem SchemaDraft.readJson_curbs {room room' : Nat} (h : room ≤ room') (draft : SchemaDraft)
    (key : SchemaKey) : Curbs (readJson room draft key) (readJson room' draft key) := by
  have hfields := (Setters.readJson_curbs room room' h).2
  cases key with
  | help => exact .refl _
  | fields => exact hfields.map fun fields => { draft with fields := some fields }

/-- Schemas are read with less levels as with more, up to the limit. -/
theorem Schema.readJson_curbs (room room' : Nat) (h : room ≤ room') :
    Curbs (Schema.readJson room) (Schema.readJson room') := by
  cases room with
  | zero =>
    cases room' with
    | zero => exact .refl _
    | succ room' =>
      refine schemaRecord.readShut_curbs (SchemaDraft.readJson room')
        fun cs halt hrecord => ?_
      simp only [readJson, hrecord]
      rfl
  | succ room =>
    obtain ⟨room', rfl⟩ := Nat.exists_eq_succ_of_ne_zero (Nat.ne_zero_of_lt h)
    have hdraft := SchemaDraft.readJson_curbs (Nat.le_of_succ_le_succ h)
    exact (schemaRecord.readJson_curbs hdraft).map SchemaDraft.resolve

end Setters

import Setters.Proofs.Json.Reordering
import Setters.Proofs.Schema.Decoding
import Setters.Proofs.Schema.Fields

/-!
# The order of members in schemas

A schema that is decoded from a value does not depend on the order of the members of any object in
the value, as long as no key is repeated: `Schema.decode_orderBlind`. Entries of a record set parts
of the draft that do not overlap, and fields of a group are kept by name.
-/

namespace Setters

open Json

variable {σ κ α : Type}

/-! ### Records -/

/-- Whether entries of different keys do not touch each other in the draft. -/
structure Record.Independent (record : Record σ κ) (update : Written → κ → Option (σ → σ)) :
    Prop where
  comm : ∀ {key key' value value' f g}, key ≠ key' → update value key = some f →
    update value' key' = some g → ∀ draft, g (f draft) = f (g draft)
  has : ∀ {key key' value f}, key ≠ key' → update value key = some f →
    ∀ draft, record.has (f draft) key' = record.has draft key'

theorem Record.decodeEntry_of_find {record : Record σ κ} {word : String} {key : κ}
    (h : record.keys.find? (fun key => record.word key == word) = some key)
    (entry : σ → κ → Written → Option σ) (draft : σ) (value : Written) :
    record.decodeEntry entry draft word value =
      if record.has draft key then none else entry draft key value := by
  rw [decodeEntry, admissible, h]
  by_cases hhas : record.has draft key <;> simp [hhas, Except.toOption]

theorem Record.decodeEntry_of_find_none {record : Record σ κ} {word : String}
    (h : record.keys.find? (fun key => record.word key == word) = none)
    (entry : σ → κ → Written → Option σ) (draft : σ) (value : Written) :
    record.decodeEntry entry draft word value = none := by
  rw [decodeEntry, admissible, h]
  rfl

theorem Record.word_of_find {record : Record σ κ} {word : String} {key : κ}
    (h : record.keys.find? (fun key => record.word key == word) = some key) :
    record.word key = word := by
  have heq := List.find?_some h
  exact beq_iff_eq.mp heq

theorem Record.Independent.commutes {record : Record σ κ}
    {update : Written → κ → Option (σ → σ)} (h : record.Independent update) :
    Commutes (record.decodeEntry fun draft key value => (update value key).map (· draft)) := by
  intro draft word word' value value' hne
  cases hfind : record.keys.find? fun key => record.word key == word with
  | none => simp [Record.decodeEntry_of_find_none hfind]
  | some key =>
    cases hfind' : record.keys.find? fun key => record.word key == word' with
    | none => simp [Record.decodeEntry_of_find_none hfind']
    | some key' =>
      have hkeys : key ≠ key' := by
        rintro rfl
        have hword := word_of_find hfind
        have hword' := word_of_find hfind'
        exact hne (hword.symm.trans hword')
      simp only [Record.decodeEntry_of_find hfind, Record.decodeEntry_of_find hfind']
      cases hf : update value key with
      | none => simp
      | some f =>
        cases hg : update value' key' with
        | none => simp
        | some g =>
          have hhas := h.has hkeys hf draft
          have hhas' := h.has hkeys.symm hg draft
          have hcomm := h.comm hkeys hf hg draft
          by_cases hdraft : record.has draft key <;>
            by_cases hdraft' : record.has draft key' <;>
            simp [hdraft, hdraft', hhas, hhas', hcomm]

theorem Record.decode_orderBlind (record : Record σ κ) {entry : σ → κ → Written → Option σ}
    (hcomm : Commutes (record.decodeEntry entry))
    (hblind : ∀ draft key, Written.OrderBlind (entry draft key)) :
    Written.OrderBlind (record.decode entry) := by
  intro value value' h hkeys
  have hentry : ∀ draft word, Written.OrderBlind (record.decodeEntry entry draft word) := by
    intro draft word value value' h hkeys
    have heach : ∀ key, entry draft key value = entry draft key value' := fun key =>
      hblind draft key value value' h hkeys
    simp only [decodeEntry, heach]
  cases value <;> cases value' <;> first | exact h.elim | skip
  · rfl
  · rfl
  · rfl
  · rfl
  · exact decodeRow_reorders record.short hblind h hkeys record.keys 0 record.start
  · exact foldlM_reorders hcomm hentry h hkeys record.start

/-! ### Leaves -/

theorem Written.text?_orderBlind : Written.OrderBlind Written.text? := by
  intro value value' h _
  cases value <;> cases value' <;> first | exact h.elim | rfl | exact congrArg textOf h

theorem decodeNull_orderBlind : Written.OrderBlind decodeNull := by
  intro value value' h _
  cases value <;> cases value' <;> first | exact h.elim | rfl

theorem orNull_orderBlind {decode : Written → Option α} (hblind : Written.OrderBlind decode) :
    Written.OrderBlind (Written.orNull decode) := by
  intro value value' h hkeys
  have hdecode : (decode value).map some = (decode value').map some :=
    congrArg _ (hblind value value' h hkeys)
  cases value <;> cases value' <;> first | exact h.elim | exact hdecode | rfl

theorem TargetPath.decode_orderBlind : Written.OrderBlind TargetPath.decode :=
  Written.text?_orderBlind.comp fun text => text.bind fun text => (ofText text).toOption

theorem ValueKind.decodeMembers_of_length {members : List (List Piece × Written)}
    (h : 1 < members.length) : decodeMembers members = none := by
  cases members with
  | nil => rfl
  | cons member members =>
    cases members with
    | nil => exact absurd h (by simp)
    | cons member' members => simp [decodeMembers]

theorem ValueKind.decodeMembers_reorders {members members' : List (List Piece × Written)}
    (h : (Written.object members).Reorders (.object members'))
    (hkeys : (Written.object members).DistinctKeys) :
    decodeMembers members = decodeMembers members' := by
  obtain ⟨shuffled, hperm, hmembers⟩ := h
  have hlength : members.length = members'.length := by
    have hnames := congrArg List.length (map_fst_of_reordersMembers hmembers)
    rw [List.length_map, List.length_map] at hnames
    exact hnames.trans hperm.length_eq
  cases members with
  | nil => rw [List.length_eq_zero_iff.mp hlength.symm]
  | cons member rest =>
    cases rest with
    | cons _ _ =>
      have hmany : 1 < members'.length := by
        rw [← hlength, List.length_cons, List.length_cons]
        omega
      rw [decodeMembers_of_length hmany, decodeMembers_of_length (hlength ▸ hmany)]
    | nil =>
      cases shuffled with
      | nil => exact hmembers.elim
      | cons member' shuffled =>
        obtain ⟨key, value⟩ := member
        obtain ⟨key', value'⟩ := member'
        obtain ⟨rfl, hvalue, hnil⟩ := hmembers
        obtain rfl : shuffled = [] := by
          cases shuffled with
          | nil => rfl
          | cons _ _ => exact hnil.elim
        have hnull := decodeNull_orderBlind value value' hvalue hkeys.2.1
        rw [← List.singleton_perm.mp hperm, decodeMembers, decodeMembers, hnull]

theorem ValueKind.decode_orderBlind (room : Nat) : Written.OrderBlind (ValueKind.decode room) := by
  intro value value' h hkeys
  cases value <;> cases value' <;> first | exact h.elim | skip
  · rfl
  · rfl
  · rfl
  · exact congrArg (fun pieces => ValueKind.decode room (.string pieces)) h
  · rfl
  · cases room with
    | zero => rfl
    | succ room => exact decodeMembers_reorders h hkeys

/-! ### Fields -/

theorem FieldDraft.update_orderBlind {decodeFields : Written → Option Fields}
    (hfields : Written.OrderBlind decodeFields) (room : Nat) (key : FieldKey) :
    Written.OrderBlind fun value => update decodeFields room value key := by
  have htext := orNull_orderBlind Written.text?_orderBlind
  cases key with
  | help => exact htext.comp (Option.map _)
  | fields => exact (orNull_orderBlind hfields).comp (Option.map _)
  | parameter => exact htext.comp (Option.map _)
  | type => exact (orNull_orderBlind (ValueKind.decode_orderBlind room)).comp (Option.map _)
  | target => exact (orNull_orderBlind TargetPath.decode_orderBlind).comp (Option.map _)

theorem fieldRecord_independent (decodeFields : Written → Option Fields) (room : Nat) :
    fieldRecord.Independent (FieldDraft.update decodeFields room) where
  comm := by
    intro key key' value value' f g hne hf hg draft
    cases key <;> cases key' <;> first | exact absurd rfl hne | skip
    all_goals
      obtain ⟨_, -, rfl⟩ := Option.map_eq_some_iff.mp hf
      obtain ⟨_, -, rfl⟩ := Option.map_eq_some_iff.mp hg
      rfl
  has := by
    intro key key' value f hne hf draft
    cases key <;> cases key' <;> first | exact absurd rfl hne | skip
    all_goals
      obtain ⟨_, -, rfl⟩ := Option.map_eq_some_iff.mp hf
      rfl

theorem OrderedField.decode_succ_orderBlind {room : Nat}
    (h : Written.OrderBlind (Fields.decode room)) :
    Written.OrderBlind (OrderedField.decode (room + 1)) := by
  have hentry : ∀ draft key,
      Written.OrderBlind (FieldDraft.decode (Fields.decode room) room draft key) :=
    fun draft key => (FieldDraft.update_orderBlind h room key).comp (Option.map (· draft))
  have hcomm := (fieldRecord_independent (Fields.decode room) room).commutes
  have hrecord := fieldRecord.decode_orderBlind hcomm hentry
  exact hrecord.comp fun draft => draft.bind fun draft => draft.resolve.toOption

theorem Fields.decode_succ_orderBlind {room : Nat}
    (h : Written.OrderBlind (OrderedField.decode room)) :
    Written.OrderBlind (Fields.decode (room + 1)) := by
  have hcomm : Commutes fun (fields : Fields) name value =>
      (OrderedField.decode room value).map fun field => fields.insert name field := by
    intro fields name name' value value' hne
    cases hfield : OrderedField.decode room value with
    | none => simp [hfield]
    | some field =>
      cases hfield' : OrderedField.decode room value' with
      | none => simp [hfield']
      | some field' => simp [hfield, hfield', insert_comm hne field field' fields]
  have hblind : ∀ (fields : Fields) name, Written.OrderBlind fun value =>
      (OrderedField.decode room value).map fun field => fields.insert name field :=
    fun fields name => h.comp (Option.map fun field => fields.insert name field)
  intro value value' hvalue hkeys
  cases value <;> cases value' <;> first | exact hvalue.elim | skip
  · rfl
  · rfl
  · rfl
  · rfl
  · rfl
  · exact foldlM_reorders hcomm hblind hvalue hkeys Fields.empty

theorem fields_decode_orderBlind (room : Nat) :
    Written.OrderBlind (OrderedField.decode room) ∧ Written.OrderBlind (Fields.decode room) := by
  induction room with
  | zero =>
    constructor
    · intro value value' _ _
      rfl
    · intro value value' _ _
      rfl
  | succ room ih =>
    exact ⟨OrderedField.decode_succ_orderBlind ih.2, Fields.decode_succ_orderBlind ih.1⟩

/-! ### Schemas -/

theorem SchemaDraft.update_orderBlind (room : Nat) (key : SchemaKey) :
    Written.OrderBlind fun value => update room value key := by
  cases key with
  | help => exact (orNull_orderBlind Written.text?_orderBlind).comp (Option.map _)
  | fields => exact (fields_decode_orderBlind room).2.comp (Option.map _)

theorem schemaRecord_independent (room : Nat) :
    schemaRecord.Independent (SchemaDraft.update room) where
  comm := by
    intro key key' value value' f g hne hf hg draft
    cases key <;> cases key' <;> first | exact absurd rfl hne | skip
    all_goals
      obtain ⟨_, -, rfl⟩ := Option.map_eq_some_iff.mp hf
      obtain ⟨_, -, rfl⟩ := Option.map_eq_some_iff.mp hg
      rfl
  has := by
    intro key key' value f hne hf draft
    cases key <;> cases key' <;> first | exact absurd rfl hne | skip
    all_goals
      obtain ⟨_, -, rfl⟩ := Option.map_eq_some_iff.mp hf
      rfl

/-- The schema of a value does not depend on the order of members. -/
theorem Schema.decode_orderBlind (room : Nat) : Written.OrderBlind (Schema.decode room) := by
  cases room with
  | zero =>
    intro value value' _ _
    rfl
  | succ room =>
    have hentry : ∀ draft key, Written.OrderBlind (SchemaDraft.decode room draft key) :=
      fun draft key => (SchemaDraft.update_orderBlind room key).comp (Option.map (· draft))
    have hcomm := (schemaRecord_independent room).commutes
    have hrecord := schemaRecord.decode_orderBlind hcomm hentry
    exact hrecord.comp (Option.map SchemaDraft.resolve)

end Setters

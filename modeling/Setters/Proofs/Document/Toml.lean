import Setters.Proofs.Document.Spelling
import Setters.Proofs.Schema.Decoding
import Setters.Schema.TomlReader

/-!
# Trees read from TOML

What the items of a tree are read as is what is decoded from the tree as it is written in JSON:
`Schema.ofToml_toOption`. Tables are gone through entry by entry on both sides. An array in place
of a field is read differently in the two formats, but as no item of it is null it has a help text
and a target, and is refused in both.
-/

namespace Setters

open Json

variable {σ κ : Type} {item : Toml.Item} {tree : Document} {entries : List (String × Document)}

/-! ### Outcomes -/

namespace Toml

@[simp]
theorem locate_toOption {α : Type} (span : Option Span) (result : Except Refusal α) :
    (locate span result).toOption = result.toOption := by
  cases result <;> rfl

@[simp]
theorem ofContent_toOption {α : Type} (result : Except ContentFault α) :
    (ofContent result).toOption = result.toOption := by
  cases result <;> rfl

/-! ### Items by their trees -/

theorem Item.of_document?_text {value : String} (h : item.document? = some (.text value)) :
    ∃ span, item = .scalar (.string value) span := by
  cases item with
  | scalar scalar span => cases scalar <;> simp_all [document?]
  | array items span => simp [document?] at h
  | tables items span => simp [document?] at h
  | table t => simp [document?] at h

theorem Item.of_document?_array {trees : List Document} (h : item.document? = some (.array trees)) :
    ∃ items, (∃ span, item = .array items span) ∨ ∃ span, item = .tables items span := by
  cases item with
  | scalar scalar span => cases scalar <;> simp [document?] at h
  | array items span => exact ⟨items, .inl ⟨span, rfl⟩⟩
  | tables items span => exact ⟨items, .inr ⟨span, rfl⟩⟩
  | table t => simp [document?] at h

theorem Item.of_document?_table (h : item.document? = some (.table entries)) :
    ∃ form items span, item = .table ⟨form, items, span⟩ ∧ entries? items = some entries := by
  cases item with
  | scalar scalar span => cases scalar <;> simp [document?] at h
  | array items span => simp [document?] at h
  | tables items span => simp [document?] at h
  | table t =>
    obtain ⟨form, items, span⟩ := t
    obtain ⟨entries, hentries, heq⟩ := Option.map_eq_some_iff.mp h
    obtain rfl := Document.table.inj heq
    exact ⟨form, items, span, rfl, hentries⟩

end Toml

/-! ### Leaves -/

namespace Document

theorem orNull_written {α : Type} (decode : Written → Option α) (tree : Document) :
    Written.orNull decode tree.written = (decode tree.written).map some := by
  cases tree <;> rfl

theorem text?_written_text (value : String) : (text value).written.text? = some value :=
  textOf_piecesOf value

end Document

theorem Toml.readString_toOption (h : item.document? = some tree) :
    (readString item).toOption = tree.written.text? := by
  cases tree with
  | text value =>
    obtain ⟨span, rfl⟩ := Item.of_document?_text h
    rw [Document.text?_written_text]
    rfl
  | array trees => obtain ⟨items, ⟨span, rfl⟩ | ⟨span, rfl⟩⟩ := Item.of_document?_array h <;> rfl
  | table entries =>
    obtain ⟨form, items, span, rfl, -⟩ := Item.of_document?_table h
    rfl

theorem TargetPath.ofToml_toOption (h : item.document? = some tree) :
    (TargetPath.ofToml item).toOption = TargetPath.decode tree.written := by
  rw [TargetPath.decode, ← Toml.readString_toOption h, TargetPath.ofToml, Toml.locate_toOption]
  cases Toml.readString item with
  | error refusal => rfl
  | ok text => exact Toml.ofContent_toOption (ofText text)

/-- The kinds are the same, except that a table stands for a kind in other ways. -/
theorem ValueKind.ofToml_toOption (h : item.document? = some tree)
    (htable : ∀ inner, tree ≠ .table inner) (room : Nat) :
    (ValueKind.ofToml item).toOption = ValueKind.decode room tree.written := by
  cases tree with
  | text value =>
    obtain ⟨span, rfl⟩ := Toml.Item.of_document?_text h
    have hdecode : ValueKind.decode room (Document.text value).written =
        (textOf (piecesOf value)).bind fun word => (ofWord word).toOption := by
      cases room <;> rfl
    rw [hdecode, textOf_piecesOf, Option.bind_some, ValueKind.ofToml, Toml.locate_toOption,
      Toml.ofContent_toOption]
  | array trees =>
    have hdecode : ValueKind.decode room (Document.array trees).written = none := by
      cases room <;> rfl
    rw [hdecode]
    obtain ⟨items, ⟨span, rfl⟩ | ⟨span, rfl⟩⟩ := Toml.Item.of_document?_array h <;> rfl
  | table entries => exact absurd rfl (htable entries)

/-! ### Entries -/

theorem Record.word_of_admissible {record : Record σ κ} {draft : σ} {word : String} {key : κ}
    (h : record.admissible draft word = .ok key) : record.word key = word := by
  unfold admissible at h
  split at h
  · cases h
  · rename_i found hfind
    split at h
    · cases h
    · obtain rfl := Except.ok.inj h
      have heq := List.find?_some hfind
      exact beq_iff_eq.mp heq

def Record.takeEntry (record : Record σ κ) (entry : σ → κ → Toml.Item → Option σ) (draft : σ)
    (word : String) (item : Toml.Item) : Option σ :=
  (record.admissible draft word).toOption.bind fun key => entry draft key item

/-- A loop over the entries of a TOML table is a loop over the members of the table as it is
written in JSON. -/
theorem Toml.foldlM_written {step : σ → String → Item → Option σ}
    {decode : σ → String → Written → Option σ} {items : List (Key × Item)}
    (h : entries? items = some entries)
    (hstep : ∀ word item tree, item.document? = some tree → (word, tree) ∈ entries →
      ∀ state, step state word item = decode state word tree.written) (state : σ) :
    items.foldlM (fun state entry => step state entry.1.name entry.2) state =
      (Document.writtenEntries entries).foldlM (decodeMember decode) state := by
  induction items generalizing entries state with
  | nil =>
    obtain rfl := Option.some.inj h
    rfl
  | cons entry items ih =>
    obtain ⟨key, item⟩ := entry
    obtain ⟨tree, htree, hrest⟩ := Option.bind_eq_some_iff.mp h
    obtain ⟨entries, hentries, rfl⟩ := Option.map_eq_some_iff.mp hrest
    have hmember : decodeMember decode state (piecesOf key.name, tree.written) =
        decode state key.name tree.written := by
      rw [decodeMember, textOf_piecesOf, Option.bind_some]
    have hfirst := hstep key.name item tree htree List.mem_cons_self state
    have hothers := ih hentries fun word item tree hitem hmem =>
      hstep word item tree hitem (List.mem_cons_of_mem _ hmem)
    rw [Document.writtenEntries, List.foldlM_cons, List.foldlM_cons, hmember, hfirst]
    exact congrArg _ (funext hothers)

theorem Record.foldlM_takeEntry {record : Record σ κ} {entry : σ → κ → Toml.Item → Option σ}
    {decode : σ → κ → Written → Option σ} {items : List (Toml.Key × Toml.Item)}
    (h : Toml.entries? items = some entries)
    (hentry : ∀ key item tree, item.document? = some tree → (record.word key, tree) ∈ entries →
      ∀ draft, entry draft key item = decode draft key tree.written) (draft : σ) :
    items.foldlM (fun draft e => record.takeEntry entry draft e.1.name e.2) draft =
      (Document.writtenEntries entries).foldlM (decodeMember (record.decodeEntry decode)) draft := by
  refine Toml.foldlM_written h ?_ draft
  intro word item tree hitem hmem draft
  rw [takeEntry, decodeEntry]
  cases hword : record.admissible draft word with
  | error fault => rfl
  | ok key =>
    obtain rfl := word_of_admissible hword
    exact hentry key item tree hitem hmem draft

/-- What is read of an item goes into the draft as what is decoded of its tree does, since the tree
is not null. -/
theorem entry_toOption {α : Type} {result : Except Toml.Refusal α} {decode : Written → Option α}
    (h : result.toOption = decode tree.written) (put : Option α → σ → σ) (draft : σ) :
    (result.map fun a => put (some a) draft).toOption =
      ((Written.orNull decode tree.written).map put).map (· draft) := by
  rw [toOption_map, h, Document.orNull_written, Option.map_map, Option.map_map]
  rfl

theorem FieldDraft.ofToml_toOption {decodeFields : Written → Option Fields} {key : FieldKey}
    (room : Nat) (h : item.document? = some tree)
    (hfields : key = .fields → (Fields.ofToml item).toOption = decodeFields tree.written)
    (htype : key = .type → ∀ inner, tree ≠ .table inner) (draft : FieldDraft) :
    (FieldDraft.ofToml draft key item fun _ => Fields.ofToml item).toOption =
      FieldDraft.decode decodeFields room draft key tree.written := by
  have hstring := Toml.readString_toOption h
  cases key with
  | help => exact entry_toOption hstring (fun text draft => { draft with help := some text }) draft
  | fields =>
    exact entry_toOption (hfields rfl) (fun fields draft => { draft with fields := some fields }) draft
  | parameter =>
    exact entry_toOption hstring (fun text draft => { draft with parameter := some text }) draft
  | type =>
    have hkind := ValueKind.ofToml_toOption h (htype rfl) room
    exact entry_toOption hkind (fun kind draft => { draft with type := some kind }) draft
  | target =>
    have hpath := TargetPath.ofToml_toOption h
    exact entry_toOption hpath (fun path draft => { draft with target := some path }) draft

def FieldDraft.takeItem (draft : FieldDraft) (key : FieldKey) (item : Toml.Item) :
    Option FieldDraft :=
  (FieldDraft.ofToml draft key item fun _ => Fields.ofToml item).toOption

theorem Fields.readEntries_toOption (draft : FieldDraft) (items : List (Toml.Key × Toml.Item)) :
    (Fields.readEntries draft items).toOption = items.foldlM (fun draft entry =>
      fieldRecord.takeEntry FieldDraft.takeItem draft entry.1.name entry.2) draft := by
  induction items generalizing draft with
  | nil => rfl
  | cons entry items ih =>
    obtain ⟨key, item⟩ := entry
    rw [Fields.readEntries, List.foldlM_cons, Record.takeEntry]
    cases fieldRecord.admissible draft key.name with
    | error fault => rfl
    | ok name =>
      simp only [Except.toOption, Option.bind_some, FieldDraft.takeItem]
      cases FieldDraft.ofToml draft name item fun _ => Fields.ofToml item with
      | error refusal => rfl
      | ok draft' => exact ih draft'

def Fields.takeItem (fields : Fields) (word : String) (item : Toml.Item) : Option Fields :=
  (OrderedField.ofToml item).toOption.map fun field => fields.insert word field

theorem Fields.ofEntries_toOption (fields : Fields) (items : List (Toml.Key × Toml.Item)) :
    (Fields.ofEntries fields items).toOption =
      items.foldlM (fun fields entry => fields.takeItem entry.1.name entry.2) fields := by
  induction items generalizing fields with
  | nil => rfl
  | cons entry items ih =>
    obtain ⟨key, item⟩ := entry
    rw [Fields.ofEntries, List.foldlM_cons, Fields.takeItem]
    cases OrderedField.ofToml item with
    | error refusal => rfl
    | ok field => exact ih (fields.insert key.name field)

theorem SchemaDraft.readEntries_toOption (draft : SchemaDraft)
    (items : List (Toml.Key × Toml.Item)) :
    (SchemaDraft.readEntries draft items).toOption = items.foldlM (fun draft entry =>
      schemaRecord.takeEntry (fun draft key item => (SchemaDraft.ofToml draft key item).toOption)
        draft entry.1.name entry.2) draft := by
  induction items generalizing draft with
  | nil => rfl
  | cons entry items ih =>
    obtain ⟨key, item⟩ := entry
    rw [SchemaDraft.readEntries, List.foldlM_cons, Record.takeEntry]
    cases schemaRecord.admissible draft key.name with
    | error fault => rfl
    | ok name =>
      simp only [Except.toOption, Option.bind_some]
      cases SchemaDraft.ofToml draft name item with
      | error refusal => rfl
      | ok draft' => exact ih draft'

/-! ### Rows -/

namespace FieldDraft

/-- Whether the draft has a value under a key, which is more than having met it. -/
def Gives (draft : FieldDraft) : FieldKey → Prop
  | .help => draft.help.join.isSome
  | .fields => draft.fields.join.isSome
  | .parameter => draft.parameter.join.isSome
  | .type => draft.type.join.isSome
  | .target => draft.target.join.isSome

/-- Whether a draft gives what an earlier one does, and the values under some keys. -/
def GivesAlso (draft draft' : FieldDraft) (keys : List FieldKey) : Prop :=
  ∀ key, draft.Gives key ∨ key ∈ keys → draft'.Gives key

variable {draft draft' middle : FieldDraft} {key : FieldKey} {keys : List FieldKey}

theorem GivesAlso.cons (h : draft.GivesAlso middle [key]) (hrest : middle.GivesAlso draft' keys) :
    draft.GivesAlso draft' (key :: keys) := by
  intro key' hkey'
  apply hrest
  rcases hkey' with hgives | hmem
  · exact .inl (h key' (.inl hgives))
  · rcases List.mem_cons.mp hmem with rfl | hmem
    · exact .inl (h key' (.inr List.mem_cons_self))
    · exact .inr hmem

theorem givesAlso_nil (draft : FieldDraft) : draft.GivesAlso draft [] := by
  rintro key (hgives | hmem)
  · exact hgives
  · cases hmem

/-- A field with a help text is no modifier. -/
theorem resolve_toOption_of_gives (hhelp : draft.Gives .help) (htarget : draft.Gives .target) :
    draft.resolve.toOption = none := by
  obtain ⟨help, hhelp⟩ := Option.isSome_iff_exists.mp hhelp
  obtain ⟨target, htarget⟩ := Option.isSome_iff_exists.mp htarget
  simp [resolve, hhelp, htarget, Except.toOption]

theorem givesAlso_ofToml {fields : Unit → Except Toml.Refusal Fields}
    (h : (FieldDraft.ofToml draft key item fields).toOption = some draft') :
    draft.GivesAlso draft' [key] := by
  cases key <;>
  · rw [FieldDraft.ofToml, toOption_map] at h
    obtain ⟨a, -, rfl⟩ := Option.map_eq_some_iff.mp h
    intro key' hkey'
    cases key' <;> simp_all [Gives]

theorem givesAlso_decode {decodeFields : Written → Option Fields} {room : Nat}
    (h : FieldDraft.decode decodeFields room draft key tree.written = some draft') :
    draft.GivesAlso draft' [key] := by
  cases key <;>
  · rw [decode, update, Document.orNull_written, Option.map_map, Option.map_map] at h
    obtain ⟨a, -, rfl⟩ := Option.map_eq_some_iff.mp h
    intro key' hkey'
    cases key' <;> simp_all [Gives]

theorem givesAlso_readRow {count : Nat} {items : List Toml.Item}
    (h : (Fields.readRow draft count keys items).toOption = some draft') :
    draft.GivesAlso draft' keys := by
  induction keys generalizing draft count items with
  | nil =>
    rw [Fields.readRow] at h
    obtain rfl := Option.some.inj h
    exact givesAlso_nil draft
  | cons key keys ih =>
    cases items with
    | nil => cases h
    | cons item items =>
      rw [Fields.readRow] at h
      cases hentry : FieldDraft.ofToml draft key item fun _ => Fields.ofToml item with
      | error refusal =>
        rw [hentry] at h
        cases h
      | ok middle =>
        rw [hentry] at h
        have hfirst := givesAlso_ofToml (congrArg Except.toOption hentry)
        exact hfirst.cons (ih h)

theorem givesAlso_decodeRow {decodeFields : Written → Option Fields} {room count : Nat}
    {trees : List Document}
    (h : decodeRow (FieldDraft.decode decodeFields room) fieldRecord.short keys count draft
      (Document.writtenItems trees) = some draft') :
    draft.GivesAlso draft' keys := by
  induction keys generalizing draft count trees with
  | nil =>
    cases trees with
    | nil =>
      obtain rfl := Option.some.inj h
      exact givesAlso_nil draft
    | cons tree trees => cases h
  | cons key keys ih =>
    cases trees with
    | nil => cases h
    | cons tree trees =>
      obtain ⟨middle, hentry, hrow⟩ := Option.bind_eq_some_iff.mp h
      exact (givesAlso_decode hentry).cons (ih hrow)

theorem GivesAlso.resolve_toOption (h : draft.GivesAlso draft' fieldRecord.keys) :
    draft'.resolve.toOption = none :=
  resolve_toOption_of_gives (h .help (.inr (by decide))) (h .target (.inr (by decide)))

end FieldDraft

theorem OrderedField.ofToml_table (form : Toml.TableForm) (items : List (Toml.Key × Toml.Item))
    (span : Option Toml.Span) :
    (OrderedField.ofToml (.table ⟨form, items, span⟩)).toOption =
      (Fields.readEntries {} items).toOption.bind fun draft => draft.resolve.toOption := by
  rw [OrderedField.ofToml]
  cases Fields.readEntries {} items with
  | error refusal => rfl
  | ok draft => exact Toml.ofContent_toOption draft.resolve

/-- An array of items is no field. -/
theorem OrderedField.ofToml_array {trees : List Document}
    (h : item.document? = some (.array trees)) : (OrderedField.ofToml item).toOption = none := by
  obtain ⟨items, hitem⟩ := Toml.Item.of_document?_array h
  have hrow : (OrderedField.ofToml item).toOption =
      (Fields.readRow {} 0 fieldRecord.keys items).toOption.bind fun draft =>
        draft.resolve.toOption := by
    rcases hitem with ⟨span, rfl⟩ | ⟨span, rfl⟩
    all_goals
      rw [OrderedField.ofToml]
      cases Fields.readRow {} 0 fieldRecord.keys items with
      | error refusal => rfl
      | ok draft => exact Toml.ofContent_toOption draft.resolve
  rw [hrow, Option.bind_eq_none_iff]
  intro draft hdraft
  exact (FieldDraft.givesAlso_readRow hdraft).resolve_toOption

/-- An array in which nothing is null is no field. -/
theorem OrderedField.decode_array (room : Nat) (trees : List Document) :
    OrderedField.decode room (Document.array trees).written = none := by
  cases room with
  | zero => rfl
  | succ room =>
    rw [OrderedField.decode, Option.bind_eq_none_iff]
    intro draft hdraft
    exact (FieldDraft.givesAlso_decodeRow hdraft).resolve_toOption

/-! ### Fields -/

namespace Document

theorem depth_written_le_of_mem {word : String} (h : (word, tree) ∈ entries) :
    tree.written.depth ≤ Written.depthMembers (writtenEntries entries) := by
  induction entries with
  | nil => cases h
  | cons entry entries ih =>
    obtain ⟨key, value⟩ := entry
    rw [writtenEntries, Written.depthMembers]
    rcases List.mem_cons.mp h with heq | hmem
    · obtain ⟨rfl, rfl⟩ := Prod.mk.inj heq
      exact Nat.le_max_left _ _
    · exact Nat.le_trans (ih hmem) (Nat.le_max_right _ _)

theorem eq_text_of_depth (h : tree.written.depth ≤ 0) : ∃ value, tree = .text value := by
  cases tree with
  | text value => exact ⟨value, rfl⟩
  | array trees => exact absurd h (Nat.not_succ_le_zero _)
  | table entries => exact absurd h (Nat.not_succ_le_zero _)

/-- Whether no field that stands in a table of fields has a type that is a table. -/
def PlainFields (tree : Document) : Prop :=
  ∀ fields name value, tree = .table fields → (name, value) ∈ fields →
    value.PlainTypes ∧ ¬value.TypeIsTable

theorem PlainTypes.plainFields (h : (table entries).PlainTypes) (hmem : ("fields", tree) ∈ entries) :
    tree.PlainFields := by
  rintro fields name value rfl hvalue
  exact plainTypes_iff.mp h value ⟨entries, fields, name, rfl, hmem, hvalue⟩

end Document

/-- Whether the items of fields are read as their trees are decoded. -/
def FieldAgrees (room : Nat) : Prop :=
  ∀ item tree, item.document? = some tree → tree.written.depth ≤ room → tree.PlainTypes →
    ¬tree.TypeIsTable → (OrderedField.ofToml item).toOption = OrderedField.decode room tree.written

/-- Whether the items of tables of fields are read as their trees are decoded. -/
def FieldsAgree (room : Nat) : Prop :=
  ∀ item tree, item.document? = some tree → tree.written.depth ≤ room → tree.PlainFields →
    (Fields.ofToml item).toOption = Fields.decode room tree.written

theorem OrderedField.ofToml_toOption_zero : FieldAgrees 0 := by
  intro item tree h hdepth _ _
  obtain ⟨value, rfl⟩ := Document.eq_text_of_depth hdepth
  obtain ⟨span, rfl⟩ := Toml.Item.of_document?_text h
  rfl

theorem Fields.ofToml_toOption_zero : FieldsAgree 0 := by
  intro item tree h hdepth _
  obtain ⟨value, rfl⟩ := Document.eq_text_of_depth hdepth
  obtain ⟨span, rfl⟩ := Toml.Item.of_document?_text h
  rfl

theorem OrderedField.ofToml_toOption_succ {room : Nat} (hagree : FieldsAgree room) :
    FieldAgrees (room + 1) := by
  intro item tree h hdepth htypes htype
  cases tree with
  | text value =>
    obtain ⟨span, rfl⟩ := Toml.Item.of_document?_text h
    rfl
  | array trees => rw [OrderedField.decode_array, OrderedField.ofToml_array h]
  | table entries =>
    obtain ⟨form, items, span, rfl, hentries⟩ := Toml.Item.of_document?_table h
    have hdepths := Nat.le_of_succ_le_succ hdepth
    have hentry : ∀ key item tree, item.document? = some tree →
        (fieldRecord.word key, tree) ∈ entries → ∀ draft : FieldDraft,
          draft.takeItem key item =
            FieldDraft.decode (Fields.decode room) room draft key tree.written := by
      intro key item tree hitem hmem draft
      refine FieldDraft.ofToml_toOption room hitem ?_ ?_ draft
      · rintro rfl
        have hdepth' := Nat.le_trans (Document.depth_written_le_of_mem hmem) hdepths
        exact hagree item tree hitem hdepth' (htypes.plainFields hmem)
      · rintro rfl inner rfl
        exact htype ⟨entries, inner, rfl, hmem⟩
    rw [OrderedField.ofToml_table, Fields.readEntries_toOption,
      Record.foldlM_takeEntry hentries hentry]
    rfl

theorem Fields.ofToml_toOption_succ {room : Nat} (hagree : FieldAgrees room) :
    FieldsAgree (room + 1) := by
  intro item tree h hdepth hplain
  cases tree with
  | text value =>
    obtain ⟨span, rfl⟩ := Toml.Item.of_document?_text h
    rfl
  | array trees => obtain ⟨items, ⟨span, rfl⟩ | ⟨span, rfl⟩⟩ := Toml.Item.of_document?_array h <;> rfl
  | table entries =>
    obtain ⟨form, items, span, rfl, hentries⟩ := Toml.Item.of_document?_table h
    have hdepths := Nat.le_of_succ_le_succ hdepth
    rw [Fields.ofToml, Fields.ofEntries_toOption]
    refine Toml.foldlM_written hentries ?_ Fields.empty
    intro word item tree hitem hmem fields
    have hdepth' := Nat.le_trans (Document.depth_written_le_of_mem hmem) hdepths
    obtain ⟨htypes, htype⟩ := hplain entries word tree rfl hmem
    rw [Fields.takeItem, hagree item tree hitem hdepth' htypes htype]

/-- Fields are read from TOML as they are decoded, however deep they nest. -/
theorem ofToml_agrees (room : Nat) : FieldAgrees room ∧ FieldsAgree room := by
  induction room with
  | zero => exact ⟨OrderedField.ofToml_toOption_zero, Fields.ofToml_toOption_zero⟩
  | succ room ih =>
    exact ⟨OrderedField.ofToml_toOption_succ ih.2, Fields.ofToml_toOption_succ ih.1⟩

/-! ### Schemas -/

theorem SchemaDraft.ofToml_toOption {room : Nat} {key : SchemaKey} (h : item.document? = some tree)
    (hdepth : tree.written.depth ≤ room) (hplain : key = .fields → tree.PlainFields)
    (draft : SchemaDraft) :
    (SchemaDraft.ofToml draft key item).toOption = SchemaDraft.decode room draft key tree.written := by
  cases key with
  | help =>
    exact entry_toOption (Toml.readString_toOption h)
      (fun text draft => { draft with help := some text }) draft
  | fields =>
    have hfields := (ofToml_agrees room).2 item tree h hdepth (hplain rfl)
    rw [SchemaDraft.ofToml, toOption_map, hfields, decode, update, Option.map_map]
    rfl

/-- The schema of a TOML document is the one that is decoded from its tree. -/
theorem Schema.ofToml_toOption {root : Toml.Table Toml.Item} {room : Nat}
    (h : (Toml.Item.table root).document? = some tree) (hdepth : tree.written.depth ≤ room)
    (htypes : tree.PlainTypes) :
    (Schema.ofToml root).toOption = Schema.decode room tree.written := by
  obtain ⟨form, items, span⟩ := root
  obtain ⟨entries, hentries, rfl⟩ := Option.map_eq_some_iff.mp h
  cases room with
  | zero => exact absurd hdepth (Nat.not_succ_le_zero _)
  | succ room =>
    have hdepths := Nat.le_of_succ_le_succ hdepth
    have hentry : ∀ key item tree, item.document? = some tree →
        (schemaRecord.word key, tree) ∈ entries → ∀ draft : SchemaDraft,
          (SchemaDraft.ofToml draft key item).toOption =
            SchemaDraft.decode room draft key tree.written := by
      intro key item tree hitem hmem draft
      have hdepth' := Nat.le_trans (Document.depth_written_le_of_mem hmem) hdepths
      refine SchemaDraft.ofToml_toOption hitem hdepth' ?_ draft
      rintro rfl
      exact htypes.plainFields hmem
    rw [Schema.ofToml, toOption_map, SchemaDraft.readEntries_toOption,
      Record.foldlM_takeEntry hentries hentry]
    rfl

end Setters

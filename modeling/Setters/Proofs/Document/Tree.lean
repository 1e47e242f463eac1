import Mathlib.Logic.Relation
import Setters.Json
import Setters.Toml.Item

/-!
# Document trees

What a JSON text and a TOML text can have in common: a tree of strings, arrays and tables.
`Json.document?` and `Toml.Item.document?` give the tree of what was read, its entries in the
order of the text; `Document.Reorders` relates trees that differ in that order alone.

A tree is read as a schema by way of its tables of fields. `Document.PlainTypes` says of all
fields that are met on this way that their type is no table.
-/

namespace Setters

/-- A tree of strings, arrays and tables. -/
inductive Document where
  | text (value : String)
  | array (items : List Document)
  | table (entries : List (String × Document))

namespace Document

/-! ### Equality -/

mutual

def same : Document → Document → Bool
  | .text value, .text value' => value == value'
  | .array items, .array items' => sameItems items items'
  | .table entries, .table entries' => sameEntries entries entries'
  | _, _ => false

def sameItems : List Document → List Document → Bool
  | [], [] => true
  | item :: items, item' :: items' => same item item' && sameItems items items'
  | _, _ => false

def sameEntries : List (String × Document) → List (String × Document) → Bool
  | [], [] => true
  | (key, value) :: entries, (key', value') :: entries' =>
    key == key' && same value value' && sameEntries entries entries'
  | _, _ => false

end

mutual

theorem same_iff : (tree tree' : Document) → (same tree tree' = true ↔ tree = tree')
  | .text value, tree' => by cases tree' <;> simp [same]
  | .array items, tree' => by cases tree' <;> simp [same, sameItems_iff items]
  | .table entries, tree' => by cases tree' <;> simp [same, sameEntries_iff entries]

theorem sameItems_iff : (items items' : List Document) →
    (sameItems items items' = true ↔ items = items')
  | [], items' => by cases items' <;> simp [sameItems]
  | item :: items, items' => by
    cases items' with
    | nil => simp [sameItems]
    | cons item' items' => simp [sameItems, same_iff item, sameItems_iff items]

theorem sameEntries_iff : (entries entries' : List (String × Document)) →
    (sameEntries entries entries' = true ↔ entries = entries')
  | [], entries' => by cases entries' <;> simp [sameEntries]
  | (key, value) :: entries, entries' => by
    cases entries' with
    | nil => simp [sameEntries]
    | cons entry' entries' =>
      simp [sameEntries, same_iff value, sameEntries_iff entries, Prod.ext_iff, and_assoc]

end

instance : DecidableEq Document := fun tree tree' => decidable_of_iff _ (same_iff tree tree')

/-! ### Keys and their order -/

mutual

/-- Whether the second tree is the first one with the entries of its tables in some order. -/
def Reorders : Document → Document → Prop
  | .text value, .text value' => value = value'
  | .array items, .array items' => ReordersItems items items'
  | .table entries, .table entries' =>
    ∃ shuffled, shuffled.Perm entries' ∧ ReordersEntries entries shuffled
  | _, _ => False

def ReordersItems : List Document → List Document → Prop
  | [], [] => True
  | item :: items, item' :: items' => Reorders item item' ∧ ReordersItems items items'
  | _, _ => False

/-- Whether each entry has the key of the one in its place and is reordered into it. -/
def ReordersEntries : List (String × Document) → List (String × Document) → Prop
  | [], [] => True
  | (key, value) :: entries, (key', value') :: entries' =>
    key = key' ∧ Reorders value value' ∧ ReordersEntries entries entries'
  | _, _ => False

end

mutual

/-- Whether no table has a repeated key. -/
def DistinctKeys : Document → Prop
  | .text _ => True
  | .array items => DistinctKeysItems items
  | .table entries => (entries.map Prod.fst).Nodup ∧ DistinctKeysEntries entries

def DistinctKeysItems : List Document → Prop
  | [] => True
  | item :: items => DistinctKeys item ∧ DistinctKeysItems items

def DistinctKeysEntries : List (String × Document) → Prop
  | [] => True
  | (_, value) :: entries => DistinctKeys value ∧ DistinctKeysEntries entries

end

mutual

theorem Reorders.refl : (tree : Document) → tree.Reorders tree
  | .text _ => rfl
  | .array items => ReordersItems.refl items
  | .table entries => ⟨entries, .refl entries, ReordersEntries.refl entries⟩

theorem ReordersItems.refl : (items : List Document) → ReordersItems items items
  | [] => trivial
  | item :: items => ⟨Reorders.refl item, ReordersItems.refl items⟩

theorem ReordersEntries.refl : (entries : List (String × Document)) →
    ReordersEntries entries entries
  | [] => trivial
  | (_, value) :: entries => ⟨rfl, Reorders.refl value, ReordersEntries.refl entries⟩

end

variable {tree tree' value value' : Document} {entries entries' : List (String × Document)}
  {key : String}

theorem ReordersEntries.exists_mem (h : ReordersEntries entries entries')
    (hmem : (key, value') ∈ entries') : ∃ value, (key, value) ∈ entries ∧ value.Reorders value' := by
  induction entries generalizing entries' with
  | nil =>
    cases entries' with
    | nil => cases hmem
    | cons entry' entries' => exact h.elim
  | cons entry entries ih =>
    cases entries' with
    | nil => exact h.elim
    | cons entry' entries' =>
      obtain ⟨key₀, value₀⟩ := entry
      obtain ⟨key₁, value₁⟩ := entry'
      obtain ⟨rfl, hvalue, hrest⟩ := h
      rcases List.mem_cons.mp hmem with heq | hmem
      · obtain ⟨rfl, rfl⟩ := Prod.mk.inj heq
        exact ⟨value₀, List.mem_cons_self, hvalue⟩
      · obtain ⟨value, hmem', hreorders⟩ := ih hrest hmem
        exact ⟨value, List.mem_cons_of_mem _ hmem', hreorders⟩

/-- A table that is reordered has an entry for each entry that comes of it. -/
theorem Reorders.exists_mem (h : tree.Reorders (.table entries'))
    (hmem : (key, value') ∈ entries') :
    ∃ entries, tree = .table entries ∧ ∃ value, (key, value) ∈ entries ∧ value.Reorders value' := by
  cases tree with
  | text value => exact h.elim
  | array items => exact h.elim
  | table entries =>
    obtain ⟨shuffled, hperm, hentries⟩ := h
    exact ⟨entries, rfl, hentries.exists_mem (hperm.mem_iff.mpr hmem)⟩

theorem Reorders.exists_table (h : tree.Reorders (.table entries')) :
    ∃ entries, tree = .table entries := by
  cases tree with
  | text value => exact h.elim
  | array items => exact h.elim
  | table entries => exact ⟨entries, rfl⟩

/-! ### Fields -/

/-- Whether a value belongs to a field of a group: it stands in the table `fields`. -/
def HasField (group value : Document) : Prop :=
  ∃ entries fields name,
    group = .table entries ∧ ("fields", .table fields) ∈ entries ∧ (name, value) ∈ fields

/-- Whether the value has an entry `type` that is a table. -/
def TypeIsTable (value : Document) : Prop :=
  ∃ entries inner, value = .table entries ∧ ("type", .table inner) ∈ entries

@[simp]
theorem hasField_table_iff : (table entries).HasField value ↔
    ∃ fields name, ("fields", .table fields) ∈ entries ∧ (name, value) ∈ fields := by
  simp [HasField]

@[simp]
theorem typeIsTable_table_iff :
    (table entries).TypeIsTable ↔ ∃ inner, ("type", .table inner) ∈ entries := by
  simp [TypeIsTable]

/-- Whether no field of the tree, at any depth, has a type that is a table. -/
def PlainTypes (tree : Document) : Prop :=
  ∀ value, Relation.TransGen HasField tree value → ¬value.TypeIsTable

/-- The types are plain when those of every field are that stands in the tree itself. -/
theorem plainTypes_iff : tree.PlainTypes ↔
    ∀ value, tree.HasField value → value.PlainTypes ∧ ¬value.TypeIsTable := by
  constructor
  · intro h value hfield
    exact ⟨fun inner hinner => h inner (.head hfield hinner), h value (.single hfield)⟩
  · intro h value hwithin
    obtain ⟨field, hfield, hrest⟩ := Relation.TransGen.head'_iff.mp hwithin
    obtain ⟨htypes, htype⟩ := h field hfield
    rcases Relation.reflTransGen_iff_eq_or_transGen.mp hrest with rfl | hinner
    · exact htype
    · exact htypes value hinner

theorem Reorders.exists_hasField (h : tree.Reorders tree') (hfield : tree'.HasField value') :
    ∃ value, tree.HasField value ∧ value.Reorders value' := by
  obtain ⟨entries', fields', name, rfl, hfields', hvalue'⟩ := hfield
  obtain ⟨entries, rfl, group, hgroup, hreorders⟩ := h.exists_mem hfields'
  obtain ⟨fields, rfl, value, hvalue, hreorders'⟩ := hreorders.exists_mem hvalue'
  exact ⟨value, ⟨entries, fields, name, rfl, hgroup, hvalue⟩, hreorders'⟩

theorem Reorders.typeIsTable (h : tree.Reorders tree') (htype : tree'.TypeIsTable) :
    tree.TypeIsTable := by
  obtain ⟨entries', inner', rfl, hmem'⟩ := htype
  obtain ⟨entries, rfl, value, hmem, hreorders⟩ := h.exists_mem hmem'
  obtain ⟨inner, rfl⟩ := hreorders.exists_table
  exact ⟨entries, inner, rfl, hmem⟩

/-- Types are tables in both of two trees that differ in order alone, or in none of them. -/
theorem PlainTypes.of_reorders (htypes : tree.PlainTypes) (h : tree.Reorders tree') :
    tree'.PlainTypes := by
  have hfrom : ∀ value', Relation.TransGen HasField tree' value' →
      ∃ value, Relation.TransGen HasField tree value ∧ value.Reorders value' := by
    intro value' hwithin
    induction hwithin with
    | single hfield =>
      obtain ⟨value, hvalue, hreorders⟩ := h.exists_hasField hfield
      exact ⟨value, .single hvalue, hreorders⟩
    | tail _ hfield ih =>
      obtain ⟨group, hgroup, hreorders⟩ := ih
      obtain ⟨value, hvalue, hreorders'⟩ := hreorders.exists_hasField hfield
      exact ⟨value, .tail hgroup hvalue, hreorders'⟩
  intro value' hwithin htype
  obtain ⟨value, hvalue, hreorders⟩ := hfrom value' hwithin
  exact htypes value hvalue (hreorders.typeIsTable htype)

end Document

/-! ### The tree of a JSON value -/

namespace Json

mutual

def document? : Json → Option Document
  | .string value => some (.text value)
  | .array items => (documents? items).map .array
  | .object members => (entries? members).map .table
  | _ => none

def documents? : List Json → Option (List Document)
  | [] => some []
  | item :: items => (document? item).bind fun d => (documents? items).map (d :: ·)

def entries? : List (String × Json) → Option (List (String × Document))
  | [] => some []
  | (key, value) :: members =>
    (document? value).bind fun d => (entries? members).map ((key, d) :: ·)

end

end Json

/-! ### The tree of a TOML item -/

namespace Toml

mutual

/-- The tree of an item that is made of strings, arrays and tables. How a table was written, and
an array of tables, does not show in it. -/
def Item.document? : Item → Option Document
  | .scalar (.string value) _ => some (.text value)
  | .scalar .. => none
  | .array items _ => (documents? items).map .array
  | .tables items _ => (documents? items).map .array
  | .table ⟨_, entries, _⟩ => (entries? entries).map .table

def documents? : List Item → Option (List Document)
  | [] => some []
  | item :: items => (Item.document? item).bind fun d => (documents? items).map (d :: ·)

def entries? : List (Key × Item) → Option (List (String × Document))
  | [] => some []
  | (key, item) :: entries =>
    (Item.document? item).bind fun d => (entries? entries).map ((key.name, d) :: ·)

end

end Toml

end Setters

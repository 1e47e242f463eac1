import Setters.TargetPath

/-!
# Schemas

A schema is a tree of named fields (section 3 of the specification). A field is a modifier, which
describes one settable property, or a group of further fields, perhaps with documentation.

The fields of a group are kept in ascending order of name, each name once. `Field.Ordered` says
this at every level and the types `Fields` and `Schema` carry it, so two schemas are equal
exactly when they hold the same fields, whatever the order in which those were added.
-/

namespace Setters

/-- The type of the value at a target path. -/
inductive ValueKind where
  | object
  | array
  | string
  | integer
  | number
  | boolean
deriving DecidableEq

namespace ValueKind

/-- Whether a value of this kind can be merged into one that is there. -/
def isMergeable : ValueKind → Bool
  | .object | .array => true
  | _ => false

/-- The word for a kind in schema documents. -/
def word : ValueKind → String
  | .object => "object"
  | .array => "array"
  | .string => "string"
  | .integer => "integer"
  | .number => "number"
  | .boolean => "boolean"

def all : List ValueKind :=
  [.object, .array, .string, .integer, .number, .boolean]

def ofWord? (word : String) : Option ValueKind :=
  all.find? (·.word == word)

end ValueKind

/-- One settable property: the parameter of the functions made for it, the type of its value,
and where that value lands. -/
structure Modifier where
  parameter : String
  kind : ValueKind
  target : TargetPath
deriving DecidableEq

/-- A settable property, or a group of named fields with perhaps a help text. -/
inductive Field where
  | modifier (modifier : Modifier)
  | group (help : Option String) (fields : List (String × Field))

namespace Field

/-! ### Equality -/

mutual

def same : Field → Field → Bool
  | .modifier m, .modifier m' => m == m'
  | .group h fs, .group h' fs' => h == h' && sameAll fs fs'
  | _, _ => false

def sameAll : List (String × Field) → List (String × Field) → Bool
  | [], [] => true
  | (n, f) :: fs, (n', f') :: fs' => n == n' && same f f' && sameAll fs fs'
  | _, _ => false

end

mutual

theorem same_iff : (a b : Field) → (same a b = true ↔ a = b)
  | .modifier m, b => by cases b <;> simp [same]
  | .group h fs, b => by cases b <;> simp [same, sameAll_iff fs]

theorem sameAll_iff : (as bs : List (String × Field)) → (sameAll as bs = true ↔ as = bs)
  | [], bs => by cases bs <;> simp [sameAll]
  | (n, f) :: fs, bs => by
    cases bs with
    | nil => simp [sameAll]
    | cons b bs => simp [sameAll, same_iff f, sameAll_iff fs, Prod.ext_iff, and_assoc]

end

instance : DecidableEq Field := fun a b => decidable_of_iff _ (same_iff a b)

/-! ### Order of names -/

/-- Every group lists its fields in ascending order of name, each name once. -/
inductive Ordered : Field → Prop
  | modifier (m : Modifier) : Ordered (.modifier m)
  | group {help : Option String} {fields : List (String × Field)}
      (ascending : (fields.map Prod.fst).Pairwise (· < ·))
      (inner : ∀ entry ∈ fields, Ordered entry.2) : Ordered (.group help fields)

/-- Adds a field in the place of its name; a field of that name is replaced. -/
def insert (name : String) (field : Field) : List (String × Field) → List (String × Field)
  | [] => [(name, field)]
  | (n, f) :: rest =>
    if name < n then (name, field) :: (n, f) :: rest
    else if name = n then (name, field) :: rest
    else (n, f) :: insert name field rest

theorem mem_insert {name : String} {field : Field} {fields : List (String × Field)}
    {entry : String × Field} (h : entry ∈ insert name field fields) :
    entry = (name, field) ∨ entry ∈ fields := by
  induction fields with
  | nil => simpa [insert] using h
  | cons head rest ih =>
    obtain ⟨n, f⟩ := head
    simp only [insert] at h
    split at h
    · simpa using h
    · split at h
      · simp only [List.mem_cons] at h ⊢
        exact h.imp_right Or.inr
      · simp only [List.mem_cons] at h ⊢
        rcases h with h | h
        · exact .inr (.inl h)
        · exact (ih h).imp_right Or.inr

theorem ascending_insert {name : String} {field : Field} {fields : List (String × Field)}
    (h : (fields.map Prod.fst).Pairwise (· < ·)) :
    ((insert name field fields).map Prod.fst).Pairwise (· < ·) := by
  induction fields with
  | nil => simp [insert]
  | cons head rest ih =>
    obtain ⟨n, f⟩ := head
    simp only [List.map_cons, List.pairwise_cons] at h
    simp only [insert]
    split
    · rename_i less
      simp only [List.map_cons, List.pairwise_cons, List.mem_cons, forall_eq_or_imp]
      exact ⟨⟨less, fun m hm => String.lt_trans less (h.1 m hm)⟩, h⟩
    · split
      · rename_i equal
        simpa only [List.map_cons, List.pairwise_cons, equal] using h
      · rename_i notLess notEqual
        have greater : n < name :=
          Std.lt_of_le_of_ne (String.not_lt.mp notLess) (Ne.symm notEqual)
        simp only [List.map_cons, List.pairwise_cons]
        refine ⟨fun m hm => ?_, ih h.2⟩
        obtain ⟨entry, member, rfl⟩ := List.mem_map.mp hm
        rcases mem_insert member with rfl | member
        · exact greater
        · exact h.1 _ (List.mem_map.mpr ⟨entry, member, rfl⟩)

theorem Ordered.insert {help : Option String} {name : String} {field : Field}
    {fields : List (String × Field)} (ordered : Ordered (.group help fields))
    (fieldOrdered : field.Ordered) :
    Ordered (.group help (Field.insert name field fields)) := by
  cases ordered with
  | group ascending inner =>
    refine .group (ascending_insert ascending) fun entry member => ?_
    rcases mem_insert member with rfl | member
    · exact fieldOrdered
    · exact inner entry member

end Field

/-! ### Fields and schemas -/

/-- A field that is ordered throughout. -/
abbrev OrderedField : Type := { field : Field // field.Ordered }

/-- Named fields, ordered throughout. -/
structure Fields where
  toList : List (String × Field)
  ordered : Field.Ordered (.group none toList)
deriving DecidableEq

namespace Fields

def empty : Fields :=
  ⟨[], .group .nil (by simp)⟩

def insert (name : String) (field : OrderedField) (fields : Fields) : Fields :=
  ⟨Field.insert name field.val fields.toList, fields.ordered.insert field.property⟩

end Fields

/-- The root of a schema: a group of fields, perhaps with a help text. -/
structure Schema where
  help : Option String
  fields : Fields
deriving DecidableEq

namespace Schema

def empty : Schema :=
  ⟨none, .empty⟩

def withHelp (help : String) (schema : Schema) : Schema :=
  { schema with help := some help }

def withField (name : String) (field : OrderedField) (schema : Schema) : Schema :=
  { schema with fields := schema.fields.insert name field }

def toField (schema : Schema) : OrderedField :=
  ⟨.group schema.help schema.fields.toList,
    match schema.fields.ordered with
    | .group ascending inner => .group ascending inner⟩

end Schema

def Modifier.toField (modifier : Modifier) : OrderedField :=
  ⟨.modifier modifier, .modifier modifier⟩

end Setters

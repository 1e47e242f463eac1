import Mathlib.Data.Option.Basic
import Setters.Proofs.Schema.Fields

/-!
# Assembling schemas

An `Assembly` is a program that builds a field: a modifier, or a group to which fields, assembled
in turn, are added one after the other. `Assembly.Alike` relates two programs that leave the same
last value under every name, at every level; `toField_eq_of_alike` says that they build one and
the same field.
-/

namespace Setters

/-- How a field is put together. The fields of a group are added in the order of the list, so a
later one replaces an earlier one of its name. -/
inductive Assembly where
  | modifier (modifier : Modifier)
  | group (help : Option String) (calls : List (String × Assembly))

namespace Assembly

mutual

def toField : Assembly → OrderedField
  | .modifier m => m.toField
  | .group help calls => (addTo ⟨help, .empty⟩ calls).toField

def addTo (schema : Schema) : List (String × Assembly) → Schema
  | [] => schema
  | (name, assembly) :: rest => addTo (schema.withField name assembly.toField) rest

end

/-- What was added last under a name. -/
def lastCall (name : String) (calls : List (String × Assembly)) : Option Assembly :=
  calls.reverse.lookup name

/-- Two ways to put together a field that leave the same last value under every name. -/
inductive Alike : Assembly → Assembly → Prop
  | modifier (m : Modifier) : Alike (.modifier m) (.modifier m)
  | group {help : Option String} {calls calls' : List (String × Assembly)}
      (last : ∀ name, Option.Rel Alike (lastCall name calls) (lastCall name calls')) :
      Alike (.group help calls) (.group help calls')

variable {help : Option String} {calls calls' : List (String × Assembly)}

theorem help_addTo (schema : Schema) (calls : List (String × Assembly)) :
    (addTo schema calls).help = schema.help := by
  induction calls generalizing schema with
  | nil => rfl
  | cons call rest ih => rw [addTo, ih, Schema.withField]

theorem lastCall_nil (name : String) : lastCall name [] = none :=
  rfl

theorem lastCall_cons (name n : String) (assembly : Assembly) (rest : List (String × Assembly)) :
    lastCall name ((n, assembly) :: rest) =
      (lastCall name rest).or (if name = n then some assembly else none) :=
  Field.lookup_reverse_cons name n assembly rest

/-- Under a name stands what was added last, or what stood there before. -/
theorem lookup_addTo (schema : Schema) (calls : List (String × Assembly)) (name : String) :
    (addTo schema calls).fields.toList.lookup name =
      ((lastCall name calls).map fun assembly => assembly.toField.val).or
        (schema.fields.toList.lookup name) := by
  induction calls generalizing schema with
  | nil => simp [addTo, lastCall]
  | cons call rest ih =>
    obtain ⟨n, assembly⟩ := call
    rw [addTo, ih, lastCall_cons, Option.map_or, Option.or_assoc]
    congr 1
    simp only [Schema.withField, Fields.insert, Field.lookup_insert]
    by_cases h : name = n <;> simp [h]

theorem addTo_eq_of_last (help : Option String)
    (h : ∀ name, (lastCall name calls).map toField = (lastCall name calls').map toField) :
    addTo ⟨help, .empty⟩ calls = addTo ⟨help, .empty⟩ calls' := by
  have hfields : (addTo ⟨help, .empty⟩ calls).fields = (addTo ⟨help, .empty⟩ calls').fields := by
    refine Fields.ext_lookup fun name => ?_
    have hlast := congrArg (Option.map Subtype.val) (h name)
    rw [Option.map_map, Option.map_map] at hlast
    rw [lookup_addTo, lookup_addTo]
    exact congrArg (Option.or · _) hlast
  have hhelp := (help_addTo ⟨help, .empty⟩ calls).trans (help_addTo ⟨help, .empty⟩ calls').symm
  cases hs : addTo ⟨help, .empty⟩ calls
  cases hs' : addTo ⟨help, .empty⟩ calls'
  rw [hs, hs'] at hfields hhelp
  exact congrArg₂ Schema.mk hhelp hfields

/-- What is built depends on the last values alone. -/
theorem toField_eq_of_alike {a b : Assembly} (h : Alike a b) : a.toField = b.toField := by
  -- the relation is nested in that of the last values, which has an induction hypothesis too
  refine @Alike.rec (fun a b _ => a.toField = b.toField)
    (fun o o' _ => o.map toField = o'.map toField) ?_ ?_ ?_ ?_ a b h
  · exact fun m => rfl
  · intro help calls calls' _ ih
    rw [toField, toField, addTo_eq_of_last help ih]
  · exact fun _ heq => congrArg some heq
  · rfl

theorem map_toField_eq {a b : Option Assembly} (h : Option.Rel Alike a b) :
    a.map toField = b.map toField := by
  cases h with
  | some halike => exact congrArg some (toField_eq_of_alike halike)
  | none => rfl

/-- What fields are added to does not tell their order. -/
theorem addTo_eq_of_alike (h : Alike (.group help calls) (.group help calls')) :
    addTo ⟨help, .empty⟩ calls = addTo ⟨help, .empty⟩ calls' := by
  cases h with
  | group last => exact addTo_eq_of_last help fun name => map_toField_eq (last name)

end Assembly

end Setters

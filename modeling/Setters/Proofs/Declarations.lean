import Mathlib.Data.List.Basic
import Setters.Compilation

/-!
# Declarations of fields

What `Field.compile` makes of one field: the first declaration has the field's own name, and a
second one, the mixin, follows where values can be merged. `names_compile` ties the names of the
declarations to those that `Field.declarationNames` announces to validation.

`ofGroup_inj` reads the parts of a group back from its declaration.
-/

namespace Setters

/-- The help text as far as it is written: an empty one is not. -/
def shownHelp : Option String → Option String
  | some help => if help.isEmpty then none else some help
  | none => none

namespace Expr

variable {n n' : String} {help help' : Option String} {ds ds' : List Expr} {e e' : Expr}

theorem documented_eq (e : Expr) (help : Option String) :
    e.documented help = (shownHelp help).elim e e.comment := by
  cases help with
  | none => rfl
  | some text => cases h : text.isEmpty <;> simp [documented, shownHelp, h]

theorem documented_of_none (h : shownHelp help = none) : e.documented help = e := by
  rw [documented_eq, h, Option.elim_none]

theorem documented_of_some {text : String} (h : shownHelp help = some text) :
    e.documented help = .comment e text := by
  rw [documented_eq, h, Option.elim_some]

theorem literal_cases (n : String) (ds : List Expr) :
    literal n ds = .object n ds ∧ (∀ d, ds = [d] → d.isFunc = true) ∨
      ∃ d, ds = [d] ∧ d.isFunc = false ∧ literal n ds = .concise n d := by
  match ds with
  | [] => exact .inl ⟨rfl, by simp⟩
  | [d] =>
    cases hd : d.isFunc with
    | true => exact .inl ⟨by simp [literal, hd], by simp [hd]⟩
    | false => exact .inr ⟨d, rfl, hd, by simp [literal, hd]⟩
  | _ :: _ :: _ => exact .inl ⟨rfl, by simp⟩

@[simp]
theorem name_literal (n : String) (ds : List Expr) : (literal n ds).name = n := by
  rcases literal_cases n ds with ⟨h, -⟩ | ⟨d, -, -, h⟩ <;> simp [h, name]

@[simp]
theorem isFunc_literal (n : String) (ds : List Expr) : (literal n ds).isFunc = false := by
  rcases literal_cases n ds with ⟨h, -⟩ | ⟨d, -, -, h⟩ <;> simp [h, isFunc]

theorem literal_ne_comment {text : String} : literal n ds ≠ .comment e text := by
  intro heq
  rcases literal_cases n ds with ⟨h, -⟩ | ⟨d, -, -, h⟩ <;> simp [h] at heq

theorem literal_inj (h : literal n ds = literal n' ds') : n = n' ∧ ds = ds' := by
  rcases literal_cases n ds with ⟨hl, -⟩ | ⟨d, rfl, -, hl⟩ <;>
    rcases literal_cases n' ds' with ⟨hl', -⟩ | ⟨d', rfl, -, hl'⟩ <;>
    simp [hl, hl'] at h <;> simp [h]

@[simp]
theorem name_ofGroup (n : String) (help : Option String) (ds : List Expr) :
    (ofGroup n help ds).name = n := by
  cases h : shownHelp help with
  | none => simp [ofGroup, documented_of_none h]
  | some text => simp [ofGroup, documented_of_some h, name]

@[simp]
theorem isFunc_ofGroup (n : String) (help : Option String) (ds : List Expr) :
    (ofGroup n help ds).isFunc = false := by
  cases h : shownHelp help with
  | none => simp [ofGroup, documented_of_none h]
  | some text => simp [ofGroup, documented_of_some h, isFunc]

/-- The declaration of a group shows its name, its help unless that is empty, and the sorted
declarations of its fields. -/
theorem ofGroup_inj (h : ofGroup n help ds = ofGroup n' help' ds') :
    n = n' ∧ shownHelp help = shownHelp help' ∧ sortByName ds = sortByName ds' := by
  simp only [ofGroup] at h
  cases ht : shownHelp help with
  | none =>
    rw [documented_of_none ht] at h
    cases ht' : shownHelp help' with
    | none =>
      rw [documented_of_none ht'] at h
      exact ⟨(literal_inj h).1, rfl, (literal_inj h).2⟩
    | some text' =>
      rw [documented_of_some ht'] at h
      exact absurd h literal_ne_comment
  | some text =>
    rw [documented_of_some ht] at h
    cases ht' : shownHelp help' with
    | none =>
      rw [documented_of_none ht'] at h
      exact absurd h.symm literal_ne_comment
    | some text' =>
      rw [documented_of_some ht', Expr.comment.injEq] at h
      exact ⟨(literal_inj h.1).1, congrArg some h.2, (literal_inj h.1).2⟩

theorem ofGroup_congr (n : String) (hhelp : shownHelp help = shownHelp help')
    (hds : sortByName ds = sortByName ds') : ofGroup n help ds = ofGroup n help' ds' := by
  simp only [ofGroup, documented_eq, hhelp, hds]

end Expr

namespace Field

def hasMixin : Field → Bool
  | .modifier m => m.kind.isMergeable
  | .group .. => false

/-- The setter of a modifier, or the declaration of a group. -/
def primary (name : String) : Field → Expr
  | .modifier m => m.function name false
  | .group help fields => .ofGroup name help (compileAll fields)

@[simp]
theorem name_primary (name : String) (field : Field) : (field.primary name).name = name := by
  cases field with
  | modifier m => rfl
  | group help fields => exact Expr.name_ofGroup name help (compileAll fields)

theorem declarationNames_eq (name : String) (field : Field) :
    field.declarationNames name =
      name :: if field.hasMixin then [name ++ mixinSuffix] else [] := by
  cases field with
  | modifier m => rfl
  | group help fields => rfl

/-- What a field is compiled to: its primary declaration, then perhaps its mixin. -/
theorem mem_compile {name : String} {field : Field} {d : Expr} :
    d ∈ field.compile name ↔ d = field.primary name ∨
      ∃ m, field = .modifier m ∧ m.kind.isMergeable = true ∧
        d = m.function (name ++ mixinSuffix) true := by
  cases field with
  | modifier m => cases h : m.kind.isMergeable <;> simp [compile, Modifier.functions, primary, h]
  | group help fields => simp [compile, primary]

/-- Validation and compilation name the declarations of a field alike. -/
theorem names_compile (name : String) (field : Field) :
    (field.compile name).map Expr.name = field.declarationNames name := by
  cases field with
  | modifier m =>
    cases h : m.kind.isMergeable <;>
      simp [compile, Modifier.functions, declarationNames, h, Modifier.function, Expr.name]
  | group help fields => simp [compile, declarationNames]

theorem compileAll_eq_flatMap (fields : List (String × Field)) :
    compileAll fields = fields.flatMap fun entry => entry.2.compile entry.1 := by
  induction fields with
  | nil => rfl
  | cons entry rest ih => rw [compileAll, ih, List.flatMap_cons]

theorem mem_compileAll {fields : List (String × Field)} {d : Expr} :
    d ∈ compileAll fields ↔ ∃ entry ∈ fields, d ∈ entry.2.compile entry.1 := by
  rw [compileAll_eq_flatMap, List.mem_flatMap]

theorem names_compileAll (fields : List (String × Field)) :
    (compileAll fields).map Expr.name =
      fields.flatMap fun entry => entry.2.declarationNames entry.1 := by
  rw [compileAll_eq_flatMap, List.map_flatMap]
  exact congrArg (fun f => fields.flatMap f) (funext fun entry => names_compile entry.1 entry.2)

end Field

theorem Schema.compile_eq_ok_iff {schema : Schema} {name : String} {tree : Expr} :
    schema.compile name = .ok tree ↔
      schema.validate = .ok () ∧ tree = schema.declaration name := by
  simp only [compile]
  cases schema.validate with
  | error fault => simp
  | ok verdict => simp [eq_comm]

end Setters

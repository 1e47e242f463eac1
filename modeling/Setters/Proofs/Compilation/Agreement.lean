import Mathlib.Data.List.Forall2
import Mathlib.Data.List.Perm.Basic
import Setters.Proofs.Expansion
import Setters.Proofs.Expr.SortByName
import Setters.Proofs.Validation

/-!
# Schemas of one tree

`Schema.Agrees` says when two schemas differ at most in what a tree does not record: an empty
help, and the kind of a value beyond whether it can be merged. `compile_eq_iff_agrees` says that
these are exactly the valid schemas that are compiled to one tree.

A tree shows the declarations of a group in sorted order, so first as a set. Among them the
primary declaration of a field is never a mixin, by the markers inside it or by not being a
function; so each primary one names a field of its own, and each mixin names the field it
belongs to.
-/

namespace Setters

namespace Field

/-! ### Agreement -/

mutual

/-- Two fields that a tree does not tell apart. -/
def Agrees : Field → Field → Prop
  | .modifier m, .modifier m' =>
    m.parameter = m'.parameter ∧ m.target = m'.target ∧
      m.kind.isMergeable = m'.kind.isMergeable
  | .group help fields, .group help' fields' =>
    shownHelp help = shownHelp help' ∧ AgreesAll fields fields'
  | _, _ => False

def AgreesAll : List (String × Field) → List (String × Field) → Prop
  | [], [] => True
  | (name, field) :: rest, (name', field') :: rest' =>
    name = name' ∧ Agrees field field' ∧ AgreesAll rest rest'
  | _, _ => False

end

theorem agreesAll_iff_forall₂ (fields fields' : List (String × Field)) :
    AgreesAll fields fields' ↔
      List.Forall₂ (fun a b => a.1 = b.1 ∧ Agrees a.2 b.2) fields fields' := by
  induction fields generalizing fields' with
  | nil => cases fields' <;> simp [AgreesAll]
  | cons entry rest ih => cases fields' <;> simp [AgreesAll, ih, and_assoc]

/-! ### From agreement to one tree -/

mutual

theorem compile_eq_of_agrees (name : String) :
    (field field' : Field) → Agrees field field' → field.compile name = field'.compile name
  | .modifier m, .modifier m', h => by
    obtain ⟨hparameter, htarget, hkind⟩ := h
    simp only [compile, Modifier.functions, hkind,
      Modifier.function_congr htarget hparameter]
  | .group help fields, .group help' fields', h => by
    have hall := compileAll_eq_of_agreesAll fields fields' h.2
    simp only [compile, hall, Expr.ofGroup_congr name h.1 rfl]
  | .modifier _, .group .., h => h.elim
  | .group .., .modifier _, h => h.elim

theorem compileAll_eq_of_agreesAll :
    (fields fields' : List (String × Field)) → AgreesAll fields fields' →
      compileAll fields = compileAll fields'
  | [], [], _ => rfl
  | (name, field) :: rest, (name', field') :: rest', h => by
    obtain ⟨rfl, hfield, hrest⟩ := h
    rw [compileAll, compileAll, compile_eq_of_agrees name field field' hfield,
      compileAll_eq_of_agreesAll rest rest' hrest]
  | [], _ :: _, h => h.elim
  | _ :: _, [], h => h.elim

end

/-! ### From declarations back to fields -/

variable {name : String} {field field' : Field} {fields fields' : List (String × Field)}

theorem ofGroup_ne_function {n n' : String} {help : Option String} {ds : List Expr}
    {m : Modifier} {merge : Bool} : Expr.ofGroup n help ds ≠ m.function n' merge := by
  intro h
  have hfunc := Expr.isFunc_ofGroup n help ds
  rw [h] at hfunc
  cases hfunc

theorem primary_ne_mixin (m : Modifier) (n : String) :
    field.primary name ≠ m.function n true := by
  intro h
  cases field with
  | modifier m' => exact absurd (Modifier.function_inj h).2.2.2 (by decide)
  | group help fields => exact ofGroup_ne_function h

theorem primary_mem (h : (name, field) ∈ fields) : field.primary name ∈ compileAll fields :=
  mem_compileAll.mpr ⟨(name, field), h, mem_compile.mpr (.inl rfl)⟩

/-- A primary declaration comes from a field of its name. -/
theorem exists_field_of_primary (h : field.primary name ∈ compileAll fields) :
    ∃ g, (name, g) ∈ fields ∧ field.primary name = g.primary name := by
  obtain ⟨⟨n, g⟩, hmem, hdecl⟩ := mem_compileAll.mp h
  rcases mem_compile.mp hdecl with heq | ⟨m, -, -, heq⟩
  · have hname := congrArg Expr.name heq
    simp only [name_primary] at hname
    subst hname
    exact ⟨g, hmem, heq⟩
  · exact absurd heq (primary_ne_mixin m _)

/-- A mixin comes from a field that has one and is called like it. -/
theorem exists_field_of_mixin {m : Modifier}
    (h : m.function (name ++ mixinSuffix) true ∈ compileAll fields) :
    ∃ g, (name, g) ∈ fields ∧ g.hasMixin = true := by
  obtain ⟨⟨n, g⟩, hmem, hdecl⟩ := mem_compileAll.mp h
  rcases mem_compile.mp hdecl with heq | ⟨m', rfl, hmergeable, heq⟩
  · exact absurd heq.symm (primary_ne_mixin m _)
  · have hname := mixin_inj.mp (Modifier.function_inj heq).1
    subst hname
    exact ⟨.modifier m', hmem, hmergeable⟩

theorem hasMixin_of_subset (asc : Ascending fields')
    (hsub : ∀ d ∈ compileAll fields, d ∈ compileAll fields')
    (h : (name, field) ∈ fields) (h' : (name, field') ∈ fields')
    (hmixin : field.hasMixin = true) : field'.hasMixin = true := by
  cases field with
  | group help inner => cases hmixin
  | modifier m =>
    have hdecl : m.function (name ++ mixinSuffix) true ∈ compileAll fields :=
      mem_compileAll.mpr ⟨_, h, mem_compile.mpr (.inr ⟨m, rfl, hmixin, rfl⟩)⟩
    obtain ⟨g, hmem, hg⟩ := exists_field_of_mixin (hsub _ hdecl)
    rw [asc.unique h' hmem]
    exact hg

/-- The primary declaration and the presence of a mixin make up all declarations of a field. -/
theorem compile_congr (hprimary : field.primary name = field'.primary name)
    (hmixin : field.hasMixin = field'.hasMixin) : field.compile name = field'.compile name := by
  cases field with
  | modifier m =>
    cases field' with
    | modifier m' =>
      obtain ⟨-, htarget, hparameter, -⟩ := Modifier.function_inj hprimary
      have hkind : m.kind.isMergeable = m'.kind.isMergeable := hmixin
      simp only [compile, Modifier.functions, hkind,
        Modifier.function_congr htarget hparameter]
    | group help' inner' => exact absurd hprimary.symm ofGroup_ne_function
  | group help inner =>
    cases field' with
    | modifier m' => exact absurd hprimary ofGroup_ne_function
    | group help' inner' => exact congrArg (fun d => [d]) hprimary

/-- Two groups of the same declarations have fields of the same names, each compiled alike. -/
theorem exists_field_compile_eq (asc : Ascending fields) (asc' : Ascending fields')
    (hperm : (compileAll fields).Perm (compileAll fields')) (h : (name, field) ∈ fields) :
    ∃ g, (name, g) ∈ fields' ∧ field.compile name = g.compile name := by
  have hsub : ∀ d ∈ compileAll fields, d ∈ compileAll fields' := fun d => hperm.mem_iff.mp
  have hsub' : ∀ d ∈ compileAll fields', d ∈ compileAll fields := fun d => hperm.mem_iff.mpr
  obtain ⟨g, hmem, hprimary⟩ := exists_field_of_primary (hsub _ (primary_mem h))
  refine ⟨g, hmem, compile_congr hprimary (Bool.eq_iff_iff.mpr ⟨?_, ?_⟩)⟩
  · exact hasMixin_of_subset asc' hsub h hmem
  · exact hasMixin_of_subset asc hsub' hmem h

mutual

theorem agrees_of_compile_eq (name : String) :
    (field field' : Field) → field.Ordered → field'.Ordered →
      field.compile name = field'.compile name → Agrees field field'
  | .modifier m, .modifier m', _, _, h => by
    obtain ⟨hsetter, hmixin⟩ := List.cons.inj h
    obtain ⟨-, htarget, hparameter, -⟩ := Modifier.function_inj hsetter
    refine ⟨hparameter, htarget, ?_⟩
    cases hm : m.kind.isMergeable <;> cases hm' : m'.kind.isMergeable <;>
      simp [hm, hm'] at hmixin ⊢
  | .group help fields, .group help' fields', .group asc inner, .group asc' inner', h => by
    have hgroup : Expr.ofGroup name help (compileAll fields) =
        Expr.ofGroup name help' (compileAll fields') := (List.cons.inj h).1
    obtain ⟨-, hhelp, hsort⟩ := Expr.ofGroup_inj hgroup
    have hperm := Expr.perm_of_sortByName_eq hsort
    refine ⟨hhelp, (agreesAll_iff_forall₂ fields fields').mpr
      (forall₂_of_ascending asc asc' (fun n f hmem => ?_) (fun n g hmem => ?_))⟩
    · obtain ⟨g, hg, hcompile⟩ := exists_field_compile_eq asc asc' hperm hmem
      exact ⟨g, hg, agrees_of_compile_eq_of_mem fields n f hmem g (inner _ hmem) (inner' _ hg)
        hcompile⟩
    · obtain ⟨f, hf, -⟩ := exists_field_compile_eq asc' asc hperm.symm hmem
      exact ⟨f, hf⟩
  | .modifier m, .group help' fields', _, _, h =>
    absurd (List.cons.inj h).1.symm ofGroup_ne_function
  | .group help fields, .modifier m', _, _, h => absurd (List.cons.inj h).1 ofGroup_ne_function

theorem agrees_of_compile_eq_of_mem :
    (fields : List (String × Field)) → ∀ n f, (n, f) ∈ fields → ∀ g : Field, f.Ordered →
      g.Ordered → f.compile n = g.compile n → Agrees f g
  | entry :: rest, n, f, hmem, g, hf, hg, h => by
    rcases List.mem_cons.mp hmem with heq | hrest
    · cases heq
      exact agrees_of_compile_eq n f g hf hg h
    · exact agrees_of_compile_eq_of_mem rest n f hrest g hf hg h

end

end Field

/-! ### Schemas -/

def Schema.Agrees (schema schema' : Schema) : Prop :=
  shownHelp schema.help = shownHelp schema'.help ∧
    Field.AgreesAll schema.fields.toList schema'.fields.toList

theorem Schema.declaration_eq_iff_agrees (n n' : String) (schema schema' : Schema) :
    schema.declaration n = schema'.declaration n' ↔ n = n' ∧ schema.Agrees schema' := by
  constructor
  · intro h
    have hname : n = n' := (Expr.ofGroup_inj h).1
    subst hname
    exact ⟨rfl, Field.agrees_of_compile_eq n _ _ schema.toField.property schema'.toField.property
      (congrArg (fun d => [d]) h)⟩
  · rintro ⟨rfl, h⟩
    have hfields := Field.compileAll_eq_of_agreesAll _ _ h.2
    exact Expr.ofGroup_congr n h.1 (congrArg Expr.sortByName hfields)

/-- Two valid schemas are compiled to one tree exactly when they are given one name and agree in
all that a tree records. -/
theorem compile_eq_iff_agrees {n n' : String} {schema schema' : Schema}
    (h : schema.validate = .ok ()) (h' : schema'.validate = .ok ()) :
    (∃ tree, schema.compile n = .ok tree ∧ schema'.compile n' = .ok tree) ↔
      n = n' ∧ schema.Agrees schema' := by
  simp only [← Schema.declaration_eq_iff_agrees, Schema.compile_eq_ok_iff, h, h', true_and]
  constructor
  · rintro ⟨tree, htree, htree'⟩
    exact htree.symm.trans htree'
  · intro heq
    exact ⟨_, rfl, heq⟩

theorem compile_eq_podSchema :
    (podSchema none .object .string).validate = .ok () ∧
    (podSchema (some "") .array .number).validate = .ok () ∧
    ∃ tree, (podSchema none .object .string).compile "pod" = .ok tree ∧
      (podSchema (some "") .array .number).compile "pod" = .ok tree :=
  ⟨rfl, rfl, (compile_eq_iff_agrees rfl rfl).mpr
    ⟨rfl, rfl, rfl, ⟨rfl, rfl, ⟨rfl, rfl, rfl⟩, trivial⟩, rfl, ⟨rfl, rfl, rfl⟩, trivial⟩⟩

end Setters

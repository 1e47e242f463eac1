import Setters.Proofs.Expansion
import Setters.Proofs.Expr.SortByName
import Setters.Proofs.Validation

/-!
# Help texts and comments

Help texts have no part in what is validated and in which declarations are made. Taking them off
a schema before it is compiled comes to taking the comments off its tree afterwards
(`Schema.declaration_withoutHelp`), so schemas that differ in nothing but help differ in nothing
but comments once they are compiled: `compile_ignores_help`.

Comments are put in below the sorting of the group around them and below the choice between the
two forms of its literal. Neither sees them: a comment has the name of what it is put on, and it
is only put on literals, which are no functions.
-/

namespace Setters

/-! ### Comments -/

namespace Expr

mutual

@[simp]
def withoutComments : Expr → Expr
  | .object name children => .object name (withoutCommentsAll children)
  | .concise name child => .concise name child.withoutComments
  | .func name params body => .func name params.withoutComments body.withoutComments
  | .ref key target => .ref key target
  | .merge inner => .merge inner.withoutComments
  | .args params => .args (withoutCommentsAll params)
  | .required param => .required param.withoutComments
  | .string name default => .string name default
  | .comment node _ => node.withoutComments

@[simp]
def withoutCommentsAll : List Expr → List Expr
  | [] => []
  | e :: es => e.withoutComments :: withoutCommentsAll es

end

mutual

@[simp]
def comments : Expr → List String
  | .object _ children => commentsAll children
  | .concise _ child => child.comments
  | .func _ params body => params.comments ++ body.comments
  | .ref .. => []
  | .merge inner => inner.comments
  | .args params => commentsAll params
  | .required param => param.comments
  | .string .. => []
  | .comment node text => text :: node.comments

@[simp]
def commentsAll : List Expr → List String
  | [] => []
  | e :: es => e.comments ++ commentsAll es

end

theorem withoutCommentsAll_eq_map (es : List Expr) :
    withoutCommentsAll es = es.map withoutComments := by
  induction es with
  | nil => rfl
  | cons e es ih => rw [withoutCommentsAll, ih, List.map_cons]

theorem commentsAll_eq_flatMap (es : List Expr) : commentsAll es = es.flatMap comments := by
  induction es with
  | nil => rfl
  | cons e es ih => rw [commentsAll, ih, List.flatMap_cons]

theorem name_withoutComments : (e : Expr) → e.withoutComments.name = e.name
  | .object .. | .concise .. | .func .. | .ref .. | .string .. | .args _ => by
    simp only [withoutComments, name]
  | .merge inner => by simpa only [withoutComments, name] using name_withoutComments inner
  | .required param => by simpa only [withoutComments, name] using name_withoutComments param
  | .comment node _ => by simpa only [withoutComments, name] using name_withoutComments node

/-! ### Literals -/

variable {n : String} {help : Option String} {ds : List Expr}

theorem isFunc_withoutComments_literal (n : String) (ds : List Expr) :
    (literal n ds).withoutComments.isFunc = false := by
  rcases literal_cases n ds with ⟨h, -⟩ | ⟨d, -, -, h⟩ <;> simp [h, isFunc]

/-- The form of a literal is the same without comments as long as these are not on functions. -/
theorem withoutComments_literal (h : ∀ d ∈ ds, d.withoutComments.isFunc = d.isFunc) :
    (literal n ds).withoutComments = literal n (ds.map withoutComments) := by
  match ds with
  | [] => simp [literal]
  | [d] =>
    have hd := h d List.mem_cons_self
    cases hfunc : d.isFunc with
    | true => simp [literal, hd, hfunc]
    | false => simp [literal, hd, hfunc]
  | d :: d' :: rest => simp [literal, withoutCommentsAll_eq_map]

theorem withoutComments_documented (e : Expr) (help : Option String) :
    (e.documented help).withoutComments = e.withoutComments := by
  cases hhelp : shownHelp help with
  | none => rw [documented_of_none hhelp]
  | some text => rw [documented_of_some hhelp, withoutComments]

theorem isFunc_withoutComments_ofGroup (n : String) (help : Option String) (ds : List Expr) :
    (ofGroup n help ds).withoutComments.isFunc = false := by
  rw [ofGroup, withoutComments_documented]
  exact isFunc_withoutComments_literal n (sortByName ds)

theorem withoutComments_ofGroup (h : ∀ d ∈ ds, d.withoutComments.isFunc = d.isFunc) :
    (ofGroup n help ds).withoutComments = ofGroup n none (ds.map withoutComments) := by
  have hsorted : ∀ d ∈ sortByName ds, d.withoutComments.isFunc = d.isFunc :=
    fun d hd => h d ((sortByName_perm ds).mem_iff.mp hd)
  calc (ofGroup n help ds).withoutComments
      = (literal n (sortByName ds)).withoutComments := by rw [ofGroup, withoutComments_documented]
    _ = literal n ((sortByName ds).map withoutComments) := withoutComments_literal hsorted
    _ = literal n (sortByName (ds.map withoutComments)) := by
        rw [map_sortByName fun e _ => name_withoutComments e]

theorem comments_literal (n : String) (ds : List Expr) :
    (literal n ds).comments = ds.flatMap comments := by
  rcases literal_cases n ds with ⟨h, -⟩ | ⟨d, rfl, -, h⟩
  · rw [h, comments, commentsAll_eq_flatMap]
  · simp [h]

theorem comments_documented (e : Expr) (help : Option String) :
    (e.documented help).comments = (shownHelp help).toList ++ e.comments := by
  cases hhelp : shownHelp help with
  | none => rw [documented_of_none hhelp, Option.toList_none, List.nil_append]
  | some text => rw [documented_of_some hhelp, comments, Option.toList_some, List.singleton_append]

theorem comments_ofGroup (n : String) (help : Option String) (ds : List Expr) :
    (ofGroup n help ds).comments.Perm ((shownHelp help).toList ++ ds.flatMap comments) := by
  rw [ofGroup, comments_documented, comments_literal]
  have hsorted := (sortByName_perm ds).flatMap_right comments
  exact hsorted.append_left (shownHelp help).toList

end Expr

/-! ### Functions -/

namespace Modifier

theorem withoutComments_expand (m : Modifier) (merge : Bool) :
    (m.expand merge).withoutComments = m.expand merge := by
  obtain ⟨p, k, ⟨parents, leaf⟩⟩ := m
  induction parents with
  | nil =>
    rw [expand_leaf]
    cases merge <;> rfl
  | cons s ss ih => rw [expand_parent, Expr.withoutComments, Expr.withoutComments, ih]

theorem comments_expand (m : Modifier) (merge : Bool) : (m.expand merge).comments = [] := by
  obtain ⟨p, k, ⟨parents, leaf⟩⟩ := m
  induction parents with
  | nil =>
    rw [expand_leaf]
    cases merge <;> rfl
  | cons s ss ih => rw [expand_parent, Expr.comments, Expr.comments, ih]

theorem withoutComments_function (m : Modifier) (name : String) (merge : Bool) :
    (m.function name merge).withoutComments = m.function name merge := by
  simp [function, withoutComments_expand]

theorem comments_function (m : Modifier) (name : String) (merge : Bool) :
    (m.function name merge).comments = [] := by
  simp [function, comments_expand]

end Modifier

/-! ### Fields -/

namespace Field

mutual

@[simp]
def withoutHelp : Field → Field
  | .modifier m => .modifier m
  | .group _ fields => .group none (withoutHelpAll fields)

@[simp]
def withoutHelpAll : List (String × Field) → List (String × Field)
  | [] => []
  | (name, field) :: rest => (name, field.withoutHelp) :: withoutHelpAll rest

end

mutual

/-- The help texts of a field, one for each group whose help is not empty. -/
@[simp]
def helps : Field → List String
  | .modifier _ => []
  | .group help fields => (shownHelp help).toList ++ helpsAll fields

@[simp]
def helpsAll : List (String × Field) → List String
  | [] => []
  | (_, field) :: rest => field.helps ++ helpsAll rest

end

variable {name : String} {field : Field} {d : Expr}

theorem names_withoutHelpAll (fields : List (String × Field)) :
    (withoutHelpAll fields).map Prod.fst = fields.map Prod.fst := by
  induction fields with
  | nil => rfl
  | cons entry rest ih => rw [withoutHelpAll, List.map_cons, List.map_cons, ih]

mutual

theorem ordered_withoutHelp : (field : Field) → field.Ordered → field.withoutHelp.Ordered
  | .modifier m, _ => .modifier m
  | .group help fields, .group asc inner => by
    refine .group ?_ (ordered_withoutHelpAll fields inner)
    rw [names_withoutHelpAll]
    exact asc

theorem ordered_withoutHelpAll : (fields : List (String × Field)) →
    (∀ entry ∈ fields, entry.2.Ordered) → ∀ entry ∈ withoutHelpAll fields, entry.2.Ordered
  | [], _ => by simp
  | (name, field) :: rest, inner => by
    have hinner := List.forall_mem_cons.mp inner
    exact List.forall_mem_cons.mpr
      ⟨ordered_withoutHelp field hinner.1, ordered_withoutHelpAll rest hinner.2⟩

end

theorem declarationNames_withoutHelp (name : String) (field : Field) :
    field.withoutHelp.declarationNames name = field.declarationNames name := by
  cases field with
  | modifier m => rfl
  | group help fields => rfl

mutual

theorem validate_withoutHelp (location : String) :
    (field : Field) → field.withoutHelp.validate location = field.validate location
  | .modifier _ => rfl
  | .group _ fields => validateAll_withoutHelpAll location [] fields

theorem validateAll_withoutHelpAll (location : String) (declared : List (String × String)) :
    (fields : List (String × Field)) →
      validateAll location declared (withoutHelpAll fields) = validateAll location declared fields
  | [] => rfl
  | (name, field) :: rest => by
    have hfield := validate_withoutHelp (fieldLocation location name) field
    have hrest := fun declared => validateAll_withoutHelpAll location declared rest
    simp only [withoutHelpAll, validateAll, declarationNames_withoutHelp, hfield, hrest]

end

theorem isFunc_withoutComments (h : d ∈ field.compile name) :
    d.withoutComments.isFunc = d.isFunc := by
  rcases mem_compile.mp h with rfl | ⟨m, -, -, rfl⟩
  · cases field with
    | modifier m => rw [primary, Modifier.withoutComments_function]
    | group help fields =>
      rw [primary, Expr.isFunc_withoutComments_ofGroup, Expr.isFunc_ofGroup]
  · rw [Modifier.withoutComments_function]

theorem isFunc_withoutComments_all {fields : List (String × Field)} :
    ∀ d ∈ compileAll fields, d.withoutComments.isFunc = d.isFunc := by
  intro d hd
  obtain ⟨entry, -, hdecl⟩ := mem_compileAll.mp hd
  exact isFunc_withoutComments hdecl

mutual

/-- Without help a field is compiled to the same declarations without comments. -/
theorem compile_withoutHelp (name : String) :
    (field : Field) → field.withoutHelp.compile name = (field.compile name).map Expr.withoutComments
  | .modifier m => by
    rw [withoutHelp, compile, Modifier.functions]
    cases m.kind.isMergeable <;> simp [Modifier.withoutComments_function]
  | .group help fields => by
    have hfields := compileAll_withoutHelpAll fields
    rw [withoutHelp, compile, compile, hfields, List.map_singleton,
      Expr.withoutComments_ofGroup isFunc_withoutComments_all]

theorem compileAll_withoutHelpAll : (fields : List (String × Field)) →
    compileAll (withoutHelpAll fields) = (compileAll fields).map Expr.withoutComments
  | [] => rfl
  | (name, field) :: rest => by
    rw [withoutHelpAll, compileAll, compileAll, compile_withoutHelp name field,
      compileAll_withoutHelpAll rest, List.map_append]

end

mutual

/-- The comments of a field's declarations are its help texts. -/
theorem comments_compile (name : String) :
    (field : Field) → ((field.compile name).flatMap Expr.comments).Perm field.helps
  | .modifier m => by
    rw [compile, Modifier.functions]
    cases m.kind.isMergeable <;> simp [Modifier.comments_function]
  | .group help fields => by
    have hfields := comments_compileAll fields
    have hgroup := Expr.comments_ofGroup name help (compileAll fields)
    rw [compile, List.flatMap_singleton, helps]
    exact hgroup.trans (hfields.append_left _)

theorem comments_compileAll : (fields : List (String × Field)) →
    ((compileAll fields).flatMap Expr.comments).Perm (helpsAll fields)
  | [] => .nil
  | (name, field) :: rest => by
    rw [compileAll, List.flatMap_append, helpsAll]
    exact (comments_compile name field).append (comments_compileAll rest)

end

end Field

/-! ### Schemas -/

namespace Schema

def withoutHelp (schema : Schema) : Schema where
  help := none
  fields :=
    ⟨Field.withoutHelpAll schema.fields.toList,
      Field.ordered_withoutHelp _ schema.fields.ordered⟩

def SameButHelp (schema schema' : Schema) : Prop :=
  schema.withoutHelp = schema'.withoutHelp

/-- The help texts of a schema, one for each group, the root included, whose help is not empty. -/
def helps (schema : Schema) : List String :=
  schema.toField.val.helps

theorem validate_withoutHelp (schema : Schema) : schema.withoutHelp.validate = schema.validate :=
  Field.validateAll_withoutHelpAll "root" [] schema.fields.toList

theorem declaration_withoutHelp (schema : Schema) (name : String) :
    schema.withoutHelp.declaration name = (schema.declaration name).withoutComments := by
  have hfields := Field.compile_withoutHelp name schema.toField.val
  exact (List.cons.inj hfields).1

theorem comments_declaration (schema : Schema) (name : String) :
    (schema.declaration name).comments.Perm schema.helps := by
  have hfields := Field.comments_compile name schema.toField.val
  rw [toField, Field.compile, List.flatMap_singleton] at hfields
  exact hfields

end Schema

/-- Help texts show in nothing but comments: schemas that differ in them alone get one verdict and
trees that are the same without comments, of which there is one for each help text. -/
theorem compile_ignores_help (name : String) :
    (∀ schema schema' : Schema, schema.SameButHelp schema' →
      schema.validate = schema'.validate ∧
      (schema.validate = .ok () → ∃ tree tree', schema.compile name = .ok tree ∧
        schema'.compile name = .ok tree' ∧ tree.withoutComments = tree'.withoutComments)) ∧
    ∀ schema : Schema, schema.validate = .ok () →
      ∃ tree, schema.compile name = .ok tree ∧ tree.comments.length = schema.helps.length := by
  constructor
  · intro schema schema' h
    have hverdict : schema.validate = schema'.validate := by
      rw [← schema.validate_withoutHelp, ← schema'.validate_withoutHelp, h]
    refine ⟨hverdict, ?_⟩
    intro hvalid
    have hvalid' : schema'.validate = .ok () := hverdict ▸ hvalid
    refine ⟨schema.declaration name, schema'.declaration name, ?_, ?_, ?_⟩
    · exact Schema.compile_eq_ok_iff.mpr ⟨hvalid, rfl⟩
    · exact Schema.compile_eq_ok_iff.mpr ⟨hvalid', rfl⟩
    · rw [← Schema.declaration_withoutHelp, ← Schema.declaration_withoutHelp, h]
  · intro schema hvalid
    refine ⟨schema.declaration name, Schema.compile_eq_ok_iff.mpr ⟨hvalid, rfl⟩, ?_⟩
    exact (schema.comments_declaration name).length_eq

/-- A help text on an inner group is the one comment of the tree. -/
theorem compile_podSchema_ignores_help :
    (podSchema (some "The pod.") .object .string).validate =
      (podSchema none .object .string).validate ∧
    (∃ tree tree', (podSchema (some "The pod.") .object .string).compile "pod" = .ok tree ∧
      (podSchema none .object .string).compile "pod" = .ok tree' ∧
      tree.withoutComments = tree'.withoutComments) ∧
    ∃ tree, (podSchema (some "The pod.") .object .string).compile "pod" = .ok tree ∧
      tree.comments.length = 1 := by
  have hsame : (podSchema (some "The pod.") .object .string).SameButHelp
      (podSchema none .object .string) := rfl
  have hpair := (compile_ignores_help "pod").1 _ _ hsame
  exact ⟨hpair.1, hpair.2 rfl, (compile_ignores_help "pod").2 _ rfl⟩

end Setters

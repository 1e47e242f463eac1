import Setters.Proofs.Expansion
import Setters.Proofs.Expr.SortByName
import Setters.Proofs.Validation

/-!
# The form of compiled trees

`Expr.IsDeclaration` says what a tree of declarations looks like: comments stand on literals only,
the members of a literal have names that ascend strictly, and a function takes one parameter and
returns literals of identifiers around one reference to it. `compile_isDeclaration` says that
whatever compilation returns is of this form.

The order of names is strict because a schema without faults has no two declarations of one name
in a group; markers are never doubled because `Modifier.expand` puts one around each literal.
-/

namespace Setters

namespace Expr

/-- What a function of `parameter` returns, inside the outer literal: one reference to the
parameter within literals of one key each, perhaps marked, no marker directly on another. -/
inductive IsBody (parameter : String) : Expr → Prop
  | ref {key : String} (identifier : isIdentifier key.toList = true) :
      IsBody parameter (.ref key parameter)
  | concise {key : String} {body : Expr} (identifier : isIdentifier key.toList = true)
      (inner : IsBody parameter body) : IsBody parameter (.concise key body)
  | merge {body : Expr} (single : body.isMerge = false) (inner : IsBody parameter body) :
      IsBody parameter (.merge body)

mutual

/-- An object literal that holds declarations, in strictly ascending byte order of their names,
or in short form one that is not a function. -/
inductive IsLiteral : Expr → Prop
  | object {name : String} {children : List Expr}
      (ascending : children.Pairwise fun a b => Text.bytes a.name < Text.bytes b.name)
      (named : ∀ child ∈ children, child.name ≠ "")
      (declared : ∀ child ∈ children, IsDeclaration child) : IsLiteral (.object name children)
  | concise {name : String} {child : Expr} (notFunc : child.isFunc = false)
      (named : child.name ≠ "") (declared : IsDeclaration child) :
      IsLiteral (.concise name child)

/-- A function of one required parameter, or a literal, perhaps with a comment. -/
inductive IsDeclaration : Expr → Prop
  | func {name parameter : String} {body : Expr} (named : parameter ≠ "")
      (returned : IsBody parameter body) :
      IsDeclaration
        (.func name (.args [.required (.string parameter "")]) (.concise "" body))
  | literal {node : Expr} (inner : IsLiteral node) : IsDeclaration node
  | comment {node : Expr} {text : String} (filled : text ≠ "") (inner : IsLiteral node) :
      IsDeclaration (.comment node text)

end

end Expr

/-! ### Functions -/

theorem Modifier.expand_isBody (m : Modifier) (merge : Bool) :
    (m.expand merge).IsBody m.parameter := by
  obtain ⟨p, k, ⟨parents, leaf⟩⟩ := m
  induction parents with
  | nil =>
    have href : (Expr.ref leaf.name p).IsBody p := .ref leaf.valid
    rw [expand_leaf]
    cases merge with
    | false => exact href
    | true => exact .merge rfl href
  | cons s ss ih =>
    rw [expand_parent]
    exact .merge rfl (.concise s.valid ih)

theorem Modifier.function_isDeclaration {m : Modifier} (h : m.parameter ≠ "") (name : String)
    (merge : Bool) : (m.function name merge).IsDeclaration :=
  .func h (m.expand_isBody merge)

/-! ### Groups -/

namespace Expr

variable {name : String} {help : Option String} {ds : List Expr}

theorem literal_isLiteral (ascending : ds.Pairwise fun a b => a.name < b.name)
    (named : ∀ d ∈ ds, d.name ≠ "") (declared : ∀ d ∈ ds, d.IsDeclaration) :
    (literal name ds).IsLiteral := by
  rcases literal_cases name ds with ⟨h, -⟩ | ⟨d, rfl, hfunc, h⟩
  · have hbytes := ascending.imp fun hlt => (Text.lt_iff_bytes_lt _ _).mp hlt
    rw [h]
    exact .object hbytes named declared
  · rw [h]
    exact .concise hfunc (named d List.mem_cons_self) (declared d List.mem_cons_self)

theorem shownHelp_ne_empty {text : String} (h : shownHelp help = some text) : text ≠ "" := by
  rintro rfl
  cases help with
  | none => cases h
  | some text' =>
    simp only [shownHelp] at h
    split at h
    · cases h
    · rename_i hfilled
      cases h
      exact hfilled rfl

theorem documented_isDeclaration {node : Expr} (h : node.IsLiteral) (help : Option String) :
    (node.documented help).IsDeclaration := by
  cases hhelp : shownHelp help with
  | none =>
    rw [documented_of_none hhelp]
    exact .literal h
  | some text =>
    rw [documented_of_some hhelp]
    exact .comment (shownHelp_ne_empty hhelp) h

theorem ofGroup_isDeclaration (distinct : (ds.map Expr.name).Nodup)
    (named : ∀ d ∈ ds, d.name ≠ "") (declared : ∀ d ∈ ds, d.IsDeclaration) :
    (ofGroup name help ds).IsDeclaration := by
  have hmem : ∀ d, d ∈ sortByName ds → d ∈ ds := fun d => (sortByName_perm ds).mem_iff.mp
  have hliteral : (literal name (sortByName ds)).IsLiteral :=
    literal_isLiteral (sortByName_ascending distinct) (fun d hd => named d (hmem d hd))
      fun d hd => declared d (hmem d hd)
  exact documented_isDeclaration hliteral help

end Expr

namespace Field

variable {location name : String} {field : Field} {group fields : List (String × Field)}

theorem names_ne_empty (h : name ≠ "") : ∀ d ∈ field.compile name, d.name ≠ "" := by
  intro d hd
  rcases mem_compile.mp hd with rfl | ⟨m, -, -, rfl⟩
  · rwa [name_primary]
  · have hmixin : name ++ mixinSuffix ≠ "" := fun h0 => h (String.append_eq_empty_iff.mp h0).1
    exact hmixin

theorem named_of_faultsAll (h : faultsAll location group fields = []) :
    ∀ d ∈ compileAll fields, d.name ≠ "" := by
  intro d hd
  obtain ⟨entry, hmem, hdecl⟩ := mem_compileAll.mp hd
  exact names_ne_empty (faultsAll_eq_nil.mp h entry hmem).1 d hdecl

/-- A group without faults is declared in form if the declarations of its fields are. -/
theorem ofGroup_isDeclaration (help : Option String) (asc : Ascending group)
    (h : faultsAll location group group = [])
    (declared : ∀ d ∈ compileAll group, d.IsDeclaration) :
    (Expr.ofGroup name help (compileAll group)).IsDeclaration :=
  Expr.ofGroup_isDeclaration
    ((groupClashes_eq_nil_iff_nodup location asc).mp (groupClashes_of_faultsAll h))
    (named_of_faultsAll h) declared

mutual

theorem compile_declares (location : String) :
    (field : Field) → field.Ordered → field.faults location = [] → ∀ name,
      ∀ d ∈ field.compile name, d.IsDeclaration
  | .modifier m, _, h, name => by
    have hparameter : m.parameter ≠ "" := by
      intro h0
      simp [faults, h0] at h
    intro d hd
    rcases mem_compile.mp hd with rfl | ⟨m', heq, -, rfl⟩
    · exact Modifier.function_isDeclaration hparameter name false
    · cases heq
      exact Modifier.function_isDeclaration hparameter (name ++ mixinSuffix) true
  | .group help fields, .group asc inner, h, name => by
    have hdeclared := compileAll_declares location fields fields inner h
    intro d hd
    rw [compile, List.mem_singleton] at hd
    rw [hd]
    exact ofGroup_isDeclaration help asc h hdeclared

theorem compileAll_declares (location : String) (group : List (String × Field)) :
    (fields : List (String × Field)) → (∀ entry ∈ fields, entry.2.Ordered) →
      faultsAll location group fields = [] → ∀ d ∈ compileAll fields, d.IsDeclaration
  | [], _, _ => by simp [compileAll]
  | (n, f) :: rest, ordered, h => by
    have hfaults := List.forall_mem_cons.mp (faultsAll_eq_nil.mp h)
    have hordered := List.forall_mem_cons.mp ordered
    have hfirst := compile_declares (fieldLocation location n) f hordered.1 hfaults.1.2.2 n
    have hrest := compileAll_declares location group rest hordered.2
      (faultsAll_eq_nil.mpr hfaults.2)
    intro d hd
    rcases List.mem_append.mp hd with hd | hd
    · exact hfirst d hd
    · exact hrest d hd

end

end Field

/-- Every tree that compilation returns is a declaration of the described form. -/
theorem compile_isDeclaration {schema : Schema} {name : String} {tree : Expr}
    (h : schema.compile name = .ok tree) : tree.IsDeclaration := by
  obtain ⟨hvalid, rfl⟩ := Schema.compile_eq_ok_iff.mp h
  have hfaults := faults_eq_nil_of_valid hvalid
  obtain ⟨help, ⟨fields, ordered⟩⟩ := schema
  cases ordered with
  | group asc inner =>
    exact Field.ofGroup_isDeclaration help asc hfaults
      (Field.compileAll_declares "root" fields fields inner hfaults)

theorem compile_podSchema_isDeclaration :
    ∃ tree, (podSchema (some "The pod.") .array .string).compile "pod" = .ok tree ∧
      tree.IsDeclaration :=
  have hcompile := Schema.compile_eq_ok_iff.mpr ⟨rfl, rfl⟩
  ⟨(podSchema (some "The pod.") .array .string).declaration "pod", hcompile,
    compile_isDeclaration hcompile⟩

end Setters

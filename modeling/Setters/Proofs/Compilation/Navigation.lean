import Setters.Proofs.Expr.SortByName
import Setters.Proofs.Validation

/-!
# Ways through a compiled tree

Names lead down a tree as they lead down the schema it was compiled from. `Expr.follow?` goes to
the one member of each name, `Field.follow?` to the field of each name, and `compile_mirrors` says
how the two go together: where names lead to a group they lead to its declaration, which holds
each declaration of each of its fields once and nothing else but these.

One step is enough to see this, because of the fields of a group without faults no two declare
the same name: `member?_ofGroup` finds a group's declaration among those beside it. The run is
then by induction on the names.
-/

namespace Setters

/-! ### Steps and ways -/

namespace Expr

/-- The members of the literal that a node is once its comment is taken off. -/
def members (node : Expr) : List Expr :=
  node.uncommented.children?.getD []

/-- The one member of a name; where there are several there is none. -/
def member? (node : Expr) (name : String) : Option Expr :=
  match node.members.filter fun member => member.name == name with
  | [only] => some only
  | _ => none

/-- The node that names lead to. -/
def follow? : Expr → List String → Option Expr
  | node, [] => some node
  | node, name :: path => (node.member? name).bind fun member => member.follow? path

end Expr

namespace Field

/-- The field of a name in a group. -/
def member? : Field → String → Option Field
  | .group _ fields, name => fields.lookup name
  | .modifier _, _ => none

/-- The field that names lead to, through groups. -/
def follow? : Field → List String → Option Field
  | field, [] => some field
  | field, name :: path => (field.member? name).bind fun member => member.follow? path

end Field

/-! ### Members of a declaration -/

namespace Expr

variable {n : String} {help : Option String} {d node : Expr} {nodes ds : List Expr}

theorem members_literal (n : String) (ds : List Expr) : (literal n ds).members = ds := by
  rcases literal_cases n ds with ⟨h, -⟩ | ⟨d, rfl, -, h⟩
  · rw [h]
    rfl
  · rw [h]
    rfl

theorem members_ofGroup (n : String) (help : Option String) (ds : List Expr) :
    (ofGroup n help ds).members = sortByName ds := by
  have hliteral := members_literal n (sortByName ds)
  cases h : shownHelp help with
  | none => rw [ofGroup, documented_of_none h, hliteral]
  | some text =>
    have huncommented : (literal n (sortByName ds)).uncommented = literal n (sortByName ds) := by
      rcases literal_cases n (sortByName ds) with ⟨h, -⟩ | ⟨d, -, -, h⟩ <;> rw [h] <;> rfl
    rw [ofGroup, documented_of_some h]
    rw [members, huncommented] at hliteral
    exact hliteral

theorem mem_members_ofGroup : d ∈ (ofGroup n help ds).members ↔ d ∈ ds := by
  rw [members_ofGroup]
  exact (sortByName_perm ds).mem_iff

theorem nodup_members_ofGroup (distinct : (ds.map Expr.name).Nodup) :
    ((ofGroup n help ds).members.map Expr.name).Nodup := by
  have hperm := (sortByName_perm ds).map Expr.name
  rw [members_ofGroup]
  exact hperm.nodup_iff.mpr distinct

/-- Among nodes of different names one name picks one node. -/
theorem filter_name (distinct : (nodes.map Expr.name).Nodup) (h : d ∈ nodes) :
    (nodes.filter fun node => node.name == d.name) = [d] := by
  induction nodes with
  | nil => cases h
  | cons first rest ih =>
    obtain ⟨hfirst, hrest⟩ := List.nodup_cons.mp distinct
    rcases List.mem_cons.mp h with rfl | hmem
    · have hnone : (rest.filter fun node => node.name == d.name) = [] := by
        rw [List.filter_eq_nil_iff]
        intro node hnode hname
        apply hfirst
        rw [← beq_iff_eq.mp hname]
        exact List.mem_map_of_mem hnode
      rw [List.filter_cons_of_pos (by simp), hnone]
    · have hne : first.name ≠ d.name := by
        intro heq
        apply hfirst
        rw [heq]
        exact List.mem_map_of_mem hmem
      rw [List.filter_cons_of_neg (by simpa using hne)]
      exact ih hrest hmem

theorem member?_of_mem (distinct : (node.members.map Expr.name).Nodup) (h : d ∈ node.members) :
    node.member? d.name = some d := by
  rw [member?, filter_name distinct h]

theorem count_member (distinct : (node.members.map Expr.name).Nodup) (h : d ∈ node.members) :
    node.members.count d = 1 :=
  List.count_eq_one_of_mem distinct.of_map h

end Expr

/-! ### Groups without faults -/

namespace Field

variable {n name location : String} {help help' : Option String} {field : Field}
  {fields fields' : List (String × Field)}

/-- Fields of a group that are in order and without faults, wherever the group stands. -/
structure Sound (fields : List (String × Field)) : Prop where
  ordered : Ordered (.group none fields)
  faultless : ∃ location, faultsAll location fields fields = []

theorem Sound.ascending (sound : Sound fields) : Ascending fields := by
  cases sound.ordered with
  | group ascending inner => exact ascending

theorem Sound.distinct (sound : Sound fields) : ((compileAll fields).map Expr.name).Nodup := by
  obtain ⟨location, hfaults⟩ := sound.faultless
  exact (groupClashes_eq_nil_iff_nodup location sound.ascending).mp
    (groupClashes_of_faultsAll hfaults)

/-- The fields of a group inside are sound too. -/
theorem Sound.inner (sound : Sound fields) (h : (n, .group help' fields') ∈ fields) :
    Sound fields' := by
  obtain ⟨location, hfaults⟩ := sound.faultless
  have hinside := (faultsAll_eq_nil.mp hfaults _ h).2.2
  cases sound.ordered with
  | group _ inner =>
    cases inner _ h with
    | group ascending' inner' =>
      exact ⟨.group ascending' inner', fieldLocation location n, hinside⟩

theorem mem_compileAll_of_lookup (sound : Sound fields) (h : fields.lookup n = some field)
    {d : Expr} (hd : d ∈ field.compile n) : d ∈ compileAll fields := by
  have hmem : (n, field) ∈ fields := (lookup_eq_some_iff sound.ascending).mp h
  exact mem_compileAll.mpr ⟨(n, field), hmem, hd⟩

/-- One step: a name leads to the declaration of the group that is the field of this name. -/
theorem member?_ofGroup (sound : Sound fields) (name : String) (help : Option String)
    (h : fields.lookup n = some (.group help' fields')) :
    (Expr.ofGroup name help (compileAll fields)).member? n =
      some (.ofGroup n help' (compileAll fields')) := by
  have hdecl : Expr.ofGroup n help' (compileAll fields') ∈ compileAll fields :=
    mem_compileAll_of_lookup sound h (List.mem_singleton.mpr rfl)
  have hmem : Expr.ofGroup n help' (compileAll fields') ∈
      (Expr.ofGroup name help (compileAll fields)).members :=
    Expr.mem_members_ofGroup.mpr hdecl
  have hfound := Expr.member?_of_mem (Expr.nodup_members_ofGroup sound.distinct) hmem
  rwa [Expr.name_ofGroup] at hfound

theorem follow?_modifier (m : Modifier) (path : List String) :
    (Field.modifier m).follow? path ≠ some (.group help fields) := by
  cases path with
  | nil => simp [follow?]
  | cons n path => simp [follow?, member?]

/-- A run: names that lead to a group lead to its declaration. -/
theorem follow?_ofGroup (sound : Sound fields) {path : List String}
    (h : (Field.group help fields).follow? path = some (.group help' fields')) (name : String) :
    (Expr.ofGroup name help (compileAll fields)).follow? path =
        some (.ofGroup (path.getLastD name) help' (compileAll fields')) ∧
      Sound fields' := by
  induction path generalizing name help fields with
  | nil =>
    obtain ⟨rfl, rfl⟩ := Field.group.inj (Option.some.inj h)
    exact ⟨rfl, sound⟩
  | cons n path ih =>
    obtain ⟨field, hlookup, hpath⟩ := Option.bind_eq_some_iff.mp h
    cases field with
    | modifier m => exact absurd hpath (follow?_modifier m path)
    | group help₁ fields₁ =>
      have hlookup : fields.lookup n = some (.group help₁ fields₁) := hlookup
      have hinner : Sound fields₁ :=
        sound.inner ((lookup_eq_some_iff sound.ascending).mp hlookup)
      have hstep := member?_ofGroup sound name help hlookup
      rw [Expr.follow?, hstep, Option.bind_some, List.getLastD_cons]
      exact ih hinner hpath n

theorem follow?_append_singleton (path : List String) (last : String) :
    field.follow? (path ++ [last]) =
      (field.follow? path).bind fun inner => inner.member? last := by
  induction path generalizing field with
  | nil =>
    rw [List.nil_append, follow?, follow?, Option.bind_some]
    exact Option.bind_fun_some _
  | cons n path ih =>
    rw [List.cons_append, follow?, follow?, Option.bind_assoc]
    exact congrArg _ (funext fun inner => ih)

/-- A member of a group's declaration that has no field's name is the mixin of a field. -/
theorem mem_compileAll_of_no_field (sound : Sound fields) (h : fields.lookup n = none) {d : Expr} :
    d ∈ compileAll fields ∧ d.name = n ↔
      ∃ x m, fields.lookup x = some (.modifier m) ∧ m.kind.isMergeable = true ∧
        n = x ++ mixinSuffix ∧ d = m.function n true := by
  constructor
  · rintro ⟨hd, hname⟩
    obtain ⟨⟨x, field⟩, hmem, hdecl⟩ := mem_compileAll.mp hd
    have hlookup : fields.lookup x = some field := (lookup_eq_some_iff sound.ascending).mpr hmem
    rcases mem_compile.mp hdecl with rfl | ⟨m, rfl, hkind, rfl⟩
    · rw [name_primary] at hname
      rw [← hname, hlookup] at h
      cases h
    · have hmixin : x ++ mixinSuffix = n := hname
      exact ⟨x, m, hlookup, hkind, hmixin.symm, by rw [hmixin]⟩
  · rintro ⟨x, m, hlookup, hkind, rfl, rfl⟩
    have hdecl : m.function (x ++ mixinSuffix) true ∈ (Field.modifier m).compile x :=
      mem_compile.mpr (.inr ⟨m, rfl, hkind, rfl⟩)
    exact ⟨mem_compileAll_of_lookup sound hlookup hdecl, rfl⟩

end Field

/-! ### Schemas -/

theorem Schema.sound_of_valid {schema : Schema} (h : schema.validate = .ok ()) :
    Field.Sound schema.fields.toList :=
  ⟨schema.fields.ordered, "root", faults_eq_nil_of_valid h⟩

/-- Whether ways through a tree go as those through a schema. Names that lead to a field lead, but
for the last of them, to the declaration of the group around it, and each declaration of the field
stands there once. Where names lead to a group without a field of the next name, a member of this
name is the mixin of a field called so but for the suffix. -/
structure Expr.Mirrors (tree : Expr) (name : String) (schema : Schema) : Prop where
  field : ∀ path last field, schema.toField.val.follow? (path ++ [last]) = some field →
    ∃ help fields, schema.toField.val.follow? path = some (.group help fields) ∧
      fields.lookup last = some field ∧
      ∃ node, tree.follow? path = some node ∧
        node = .ofGroup (path.getLastD name) help (Field.compileAll fields) ∧
        ∀ d ∈ field.compile last, node.members.count d = 1
  noField : ∀ path last help fields, schema.toField.val.follow? path = some (.group help fields) →
    fields.lookup last = none →
    ∃ node, tree.follow? path = some node ∧
      ∀ child, child ∈ node.members ∧ child.name = last ↔
        ∃ x m, fields.lookup x = some (.modifier m) ∧ m.kind.isMergeable = true ∧
          last = x ++ mixinSuffix ∧ child = m.function last true

/-- Ways through a compiled tree go as those through its schema. -/
theorem compile_mirrors {schema : Schema} {name : String} {tree : Expr}
    (h : schema.compile name = .ok tree) : tree.Mirrors name schema := by
  obtain ⟨hvalid, rfl⟩ := Schema.compile_eq_ok_iff.mp h
  have sound := Schema.sound_of_valid hvalid
  have hreach : ∀ {path help fields},
      schema.toField.val.follow? path = some (.group help fields) →
      (schema.declaration name).follow? path =
          some (.ofGroup (path.getLastD name) help (Field.compileAll fields)) ∧
        Field.Sound fields :=
    fun hpath => Field.follow?_ofGroup sound hpath name
  constructor
  · intro path last field hfield
    rw [Field.follow?_append_singleton, Option.bind_eq_some_iff] at hfield
    obtain ⟨group, hpath, hlast⟩ := hfield
    cases group with
    | modifier m => cases hlast
    | group help fields =>
      obtain ⟨hnode, hsound⟩ := hreach hpath
      refine ⟨help, fields, hpath, hlast, _, hnode, rfl, fun d hd => ?_⟩
      have hmem := Field.mem_compileAll_of_lookup hsound hlast hd
      exact Expr.count_member (Expr.nodup_members_ofGroup hsound.distinct)
        (Expr.mem_members_ofGroup.mpr hmem)
  · intro path last help fields hpath hnone
    obtain ⟨hnode, hsound⟩ := hreach hpath
    refine ⟨_, hnode, fun child => ?_⟩
    rw [Expr.mem_members_ofGroup]
    exact Field.mem_compileAll_of_no_field hsound hnone

/-- A schema where two names lead to a field, and where the last of them alone is no field but the
name of a mixin. -/
theorem compile_podSchema_mirrors :
    let schema := podSchema (some "The pod.") .array .string
    ∃ tree, schema.compile "pod" = .ok tree ∧ tree.Mirrors "pod" schema ∧
      (schema.toField.val.follow? ["spec", "withLabelsMixin"]).isSome ∧
      schema.fields.toList.lookup "withLabelsMixin" = none :=
  have hcompile := Schema.compile_eq_ok_iff.mpr ⟨rfl, rfl⟩
  ⟨(podSchema (some "The pod.") .array .string).declaration "pod", hcompile,
    compile_mirrors hcompile, rfl, rfl⟩

end Setters

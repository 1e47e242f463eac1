import Setters.Proofs.Compilation.Listing

/-!
# The shape of a group's declaration

What the declaration of a schema looks like, told from its fields: `declaration_gathers`. The
schema need not be valid, so two declarations may have one name, and what stands first among them
depends on the order in which the fields are listed; nothing else does.

Whether the literal is concise is decided on the sorted declarations. A field gives at least one
declaration, and only a group gives a single one that is no function, so this can be read off the
fields: there is one, and it is a group.
-/

namespace Setters

namespace Field

variable {entries fields : List (String × Field)}

/-- Whether a group alone makes up the fields. -/
def LoneGroup (fields : List (String × Field)) : Prop :=
  ∃ name help inner, fields = [(name, .group help inner)]

def mixinCount (fields : List (String × Field)) : Nat :=
  fields.countP fun entry => entry.2.hasMixin

/-! ### Declarations of the fields -/

theorem length_compile (name : String) (field : Field) :
    (field.compile name).length = 1 + if field.hasMixin then 1 else 0 := by
  cases field with
  | modifier m =>
    cases h : m.kind.isMergeable <;> simp [compile, Modifier.functions, hasMixin, h]
  | group help inner => simp [compile, hasMixin]

theorem length_compileAll (fields : List (String × Field)) :
    (compileAll fields).length = fields.length + mixinCount fields := by
  induction fields with
  | nil => rfl
  | cons entry rest ih =>
    have hfirst := length_compile entry.1 entry.2
    simp only [compileAll, List.length_append, List.length_cons, mixinCount, List.countP_cons,
      hfirst, ih]
    omega

theorem isFunc_modifier {name : String} {m : Modifier} {d : Expr}
    (h : d ∈ (Field.modifier m).compile name) : d.isFunc = true := by
  rcases mem_compile.mp h with rfl | ⟨m', -, -, rfl⟩
  · rfl
  · rfl

/-- Only a group alone is declared by a single node that is no function. -/
theorem loneGroup_iff :
    LoneGroup fields ↔ ∃ d, compileAll fields = [d] ∧ d.isFunc = false := by
  constructor
  · rintro ⟨name, help, inner, rfl⟩
    exact ⟨.ofGroup name help (compileAll inner), rfl, Expr.isFunc_ofGroup _ _ _⟩
  · rintro ⟨d, hd, hfunc⟩
    -- every field counts at least once, so there is one, and a modifier gives functions
    have hlength : fields.length + mixinCount fields = 1 := by
      rw [← length_compileAll, hd, List.length_singleton]
    cases fields with
    | nil => cases hd
    | cons entry rest =>
      have hrest : rest = [] := by
        rw [List.length_cons] at hlength
        exact List.eq_nil_of_length_eq_zero (by omega)
      obtain ⟨name, field⟩ := entry
      subst hrest
      have hmem : d ∈ field.compile name := by
        have hall : compileAll [(name, field)] = field.compile name := List.append_nil _
        rw [← hall, hd]
        exact List.mem_cons_self
      cases field with
      | modifier m =>
        rw [isFunc_modifier hmem] at hfunc
        cases hfunc
      | group help inner => exact ⟨name, help, inner, rfl⟩

/-! ### Listings -/

theorem hasMixin_of_lists {entry field : Field} (h : Lists entry field) :
    entry.hasMixin = field.hasMixin := by
  cases entry with
  | modifier m =>
    cases field with
    | modifier m' => exact congrArg (fun m => m.kind.isMergeable) h
    | group help inner => exact h.elim
  | group help inner =>
    cases field with
    | modifier m' => exact h.elim
    | group help' inner' => rfl

theorem counts_of_listsEach (h : ListsEach entries fields) :
    entries.length = fields.length ∧ mixinCount entries = mixinCount fields := by
  induction entries generalizing fields with
  | nil =>
    cases fields with
    | nil => exact ⟨rfl, rfl⟩
    | cons entry' rest' => exact h.elim
  | cons entry rest ih =>
    cases fields with
    | nil => exact h.elim
    | cons entry' rest' =>
      obtain ⟨-, hfield, hrest⟩ := h
      obtain ⟨hlength, hcount⟩ := ih hrest
      have hmixin := hasMixin_of_lists hfield
      simp only [mixinCount] at hcount
      simp only [List.length_cons, mixinCount, List.countP_cons, hlength, hcount, hmixin]
      exact ⟨trivial, trivial⟩

theorem loneGroup_of_listsEach (h : ListsEach entries fields) :
    LoneGroup entries ↔ LoneGroup fields := by
  constructor
  · rintro ⟨name, help, inner, rfl⟩
    match fields, h with
    | [(name', .group help' inner')], _ => exact ⟨name', help', inner', rfl⟩
    | [(_, .modifier _)], ⟨_, hfield, _⟩ => exact hfield.elim
    | _ :: _ :: _, ⟨_, _, hrest⟩ => exact hrest.elim
  · rintro ⟨name, help, inner, rfl⟩
    match entries, h with
    | [(name', .group help' inner')], _ => exact ⟨name', help', inner', rfl⟩
    | [(_, .modifier _)], ⟨_, hfield, _⟩ => exact hfield.elim
    | _ :: _ :: _, ⟨_, _, hrest⟩ => exact hrest.elim

theorem loneGroup_of_perm (h : entries.Perm fields) : LoneGroup entries ↔ LoneGroup fields := by
  constructor
  · rintro ⟨name, help, inner, rfl⟩
    exact ⟨name, help, inner, (List.singleton_perm.mp h).symm⟩
  · rintro ⟨name, help, inner, rfl⟩
    exact ⟨name, help, inner, List.perm_singleton.mp h⟩

end Field

namespace Schema

variable {schema : Schema} {entries : List (String × Field)}

theorem ListedBy.counts (h : schema.ListedBy entries) :
    entries.length = schema.fields.toList.length ∧
      Field.mixinCount entries = Field.mixinCount schema.fields.toList := by
  obtain ⟨shuffled, hperm, heach⟩ := h
  obtain ⟨hlength, hcount⟩ := Field.counts_of_listsEach heach
  exact ⟨hlength.trans hperm.length_eq, hcount.trans (hperm.countP_eq _)⟩

theorem ListedBy.loneGroup_iff (h : schema.ListedBy entries) :
    Field.LoneGroup entries ↔ Field.LoneGroup schema.fields.toList := by
  obtain ⟨shuffled, hperm, heach⟩ := h
  exact (Field.loneGroup_of_listsEach heach).trans (Field.loneGroup_of_perm hperm)

end Schema

/-! ### Literals -/

namespace Expr

/-- Whether a node is the literal of a schema whose fields are listed in some order: under the
schema's name, with all declarations of the fields in ascending byte order, and concise if a group
alone makes up the fields. -/
structure Gathers (node : Expr) (name : String) (schema : Schema)
    (entries : List (String × Field)) : Prop where
  named : node.name = name
  members : ∃ children, node.children? = some children ∧
    children.Perm (entries.flatMap fun entry => entry.2.compile entry.1) ∧
    (children.Pairwise fun a b => Text.bytes a.name ≤ Text.bytes b.name) ∧
    children.length = schema.fields.toList.length + Field.mixinCount schema.fields.toList
  concise_iff : (∃ child, node = .concise name child) ↔ Field.LoneGroup schema.fields.toList
  object_iff : (∃ children, node = .object name children) ↔
    ¬Field.LoneGroup schema.fields.toList

/-- Whether a tree is the literal of a schema, with the help as a comment around it unless there
is none or it is empty. -/
def Declares (tree : Expr) (name : String) (schema : Schema) (entries : List (String × Field)) :
    Prop :=
  ∃ node, node.Gathers name schema entries ∧
    ((∃ text, schema.help = some text ∧ text ≠ "" ∧ tree = .comment node text) ∨
      (schema.help = none ∨ schema.help = some "") ∧ tree = node)

theorem children?_literal (name : String) (ds : List Expr) :
    (literal name ds).children? = some ds := by
  rcases literal_cases name ds with ⟨h, -⟩ | ⟨d, rfl, -, h⟩
  · rw [h, children?]
  · rw [h, children?]

theorem concise_literal_iff {name : String} {ds : List Expr} :
    (∃ child, literal name ds = .concise name child) ↔ ∃ d, ds = [d] ∧ d.isFunc = false := by
  rcases literal_cases name ds with ⟨h, hfunc⟩ | ⟨d, rfl, hfunc, h⟩
  · rw [h]
    constructor
    · rintro ⟨child, heq⟩
      cases heq
    · rintro ⟨d, rfl, hd⟩
      rw [hfunc d rfl] at hd
      cases hd
  · rw [h]
    exact ⟨fun _ => ⟨d, rfl, hfunc⟩, fun _ => ⟨d, rfl⟩⟩

theorem object_literal_iff {name : String} {ds : List Expr} :
    (∃ children, literal name ds = .object name children) ↔ ¬∃ d, ds = [d] ∧ d.isFunc = false := by
  have hconcise : (∃ child, literal name ds = .concise name child) ↔ _ := concise_literal_iff
  rw [← hconcise]
  rcases literal_cases name ds with ⟨h, -⟩ | ⟨d, -, -, h⟩
  · simp [h]
  · simp [h]

/-- One node is the only one before sorting when it is afterwards. -/
theorem sortByName_eq_singleton_iff {ds : List Expr} {d : Expr} :
    sortByName ds = [d] ↔ ds = [d] := by
  have hperm := sortByName_perm ds
  constructor
  · intro h
    rw [h] at hperm
    exact (List.singleton_perm.mp hperm).symm
  · rintro rfl
    exact List.perm_singleton.mp hperm

theorem documented_cases (node : Expr) (help : Option String) :
    (∃ text, help = some text ∧ text ≠ "" ∧ node.documented help = .comment node text) ∨
      (help = none ∨ help = some "") ∧ node.documented help = node := by
  cases help with
  | none => exact .inr ⟨.inl rfl, rfl⟩
  | some text =>
    by_cases h : text = ""
    · subst h
      exact .inr ⟨.inr rfl, rfl⟩
    · have hempty : ¬text.isEmpty = true := by simpa using h
      exact .inl ⟨text, rfl, h, if_neg hempty⟩

theorem ofGroup_declares {schema : Schema} {entries : List (String × Field)}
    (h : schema.ListedBy entries) (name : String) :
    (ofGroup name schema.help (Field.compileAll entries)).Declares name schema entries := by
  have hperm := sortByName_perm (Field.compileAll entries)
  have hflat : (sortByName (Field.compileAll entries)).Perm
      (entries.flatMap fun entry => entry.2.compile entry.1) :=
    hperm.trans (.of_eq (Field.compileAll_eq_flatMap entries))
  have hlone : Field.LoneGroup schema.fields.toList ↔
      ∃ d, sortByName (Field.compileAll entries) = [d] ∧ d.isFunc = false := by
    simp only [sortByName_eq_singleton_iff]
    rw [← h.loneGroup_iff, Field.loneGroup_iff]
  have hlength : (sortByName (Field.compileAll entries)).length =
      schema.fields.toList.length + Field.mixinCount schema.fields.toList := by
    obtain ⟨hfields, hmixins⟩ := h.counts
    rw [hperm.length_eq, Field.length_compileAll, hfields, hmixins]
  refine ⟨literal name (sortByName (Field.compileAll entries)), ?_, documented_cases _ _⟩
  exact {
    named := name_literal name _
    members := ⟨_, children?_literal name _, hflat, sortByName_bytes _, hlength⟩
    concise_iff := concise_literal_iff.trans hlone.symm
    object_iff := object_literal_iff.trans (not_congr hlone.symm) }

end Expr

/-- The declaration of a schema, valid or not, is made of its help and of the declarations of its
fields, in whatever order these are listed. -/
theorem declaration_gathers (schema : Schema) (name : String) :
    (schema.declaration name).Declares name schema schema.fields.toList ∧
      ∀ entries, schema.ListedBy entries →
        (Expr.ofGroup name schema.help (Field.compileAll entries)).Declares name schema entries :=
  ⟨Expr.ofGroup_declares (Schema.listedBy_of_perm (.refl _)) name,
    fun _ h => Expr.ofGroup_declares h name⟩

/-- A schema with a field that has the name of another one's mixin. -/
def clashingSchema : Schema :=
  let path : TargetPath := ⟨[], ⟨"env", by decide⟩⟩
  (Schema.empty.withField "env" (Modifier.mk "env" .object path).toField).withField
    "envMixin" (Modifier.mk "env" .string path).toField

/-- A schema that is not valid, its fields listed in descending order. -/
theorem clashingSchema_declaration_gathers :
    let entries := clashingSchema.fields.toList.reverse
    clashingSchema.validate ≠ .ok () ∧ clashingSchema.ListedBy entries ∧
      (Expr.ofGroup "pod" clashingSchema.help (Field.compileAll entries)).Declares "pod"
        clashingSchema entries :=
  have hlisted := Schema.listedBy_of_perm (List.reverse_perm clashingSchema.fields.toList)
  ⟨by decide, hlisted, (declaration_gathers clashingSchema "pod").2 _ hlisted⟩

end Setters

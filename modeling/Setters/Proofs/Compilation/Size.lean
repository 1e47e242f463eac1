import Setters.Expr.JsonForm
import Setters.Proofs.Compilation.Shape
import Setters.Proofs.Expansion

/-!
# The size of compiled trees

The size of a node is the number of objects in its JSON value. What a schema is compiled to has a
size that can be told from the schema, its `weight`: a function counts as many nodes as its path
has markers and literals, and five around these; a group counts one for its literal, one for its
comment, and what its fields count. Sorting takes nothing away, and a concise literal is as large
as any other of the same members, so the weight does not depend on the order of the fields.
-/

namespace Setters

/-! ### Objects of a value -/

namespace Json

mutual

/-- Number of objects in a value, the value itself included. -/
@[simp]
def objectCount : Json → Nat
  | .array items => objectCountItems items
  | .object members => 1 + objectCountMembers members
  | _ => 0

@[simp]
def objectCountItems : List Json → Nat
  | [] => 0
  | item :: items => item.objectCount + objectCountItems items

@[simp]
def objectCountMembers : List (String × Json) → Nat
  | [] => 0
  | (_, value) :: members => value.objectCount + objectCountMembers members

end

end Json

namespace Expr

theorem objectCount_tagged (kind : ExprKind) (parts : List (String × Json)) :
    (tagged kind parts).objectCount = 1 + Json.objectCountMembers parts := by
  simp [tagged]

mutual

theorem objectCount_toJson : (node : Expr) → node.toJson.objectCount = node.size
  | .object _ children => by
    have hchildren := objectCount_toJsonAll children
    simp [toJson, objectCount_tagged, size, hchildren]
  | .concise _ child => by
    have hchild := objectCount_toJson child
    simp [toJson, objectCount_tagged, size, hchild]
  | .func _ params body => by
    have hparams := objectCount_toJson params
    have hbody := objectCount_toJson body
    simp [toJson, objectCount_tagged, size, hparams, hbody]
  | .ref _ _ => rfl
  | .merge inner => by
    have hinner := objectCount_toJson inner
    simp [toJson, objectCount_tagged, size, hinner]
  | .args params => by
    have hparams := objectCount_toJsonAll params
    simp [toJson, objectCount_tagged, size, hparams]
  | .required param => by
    have hparam := objectCount_toJson param
    simp [toJson, objectCount_tagged, size, hparam]
  | .string _ _ => rfl
  | .comment node _ => by
    have hnode := objectCount_toJson node
    simp [toJson, objectCount_tagged, size, hnode]

theorem objectCount_toJsonAll : (nodes : List Expr) →
    Json.objectCountItems (toJsonAll nodes) = sizeAll nodes
  | [] => rfl
  | node :: nodes => by
    rw [toJsonAll, Json.objectCountItems, objectCount_toJson node, objectCount_toJsonAll nodes,
      sizeAll]

end

/-! ### Literals -/

variable {nodes nodes' : List Expr}

theorem sizeAll_append (nodes nodes' : List Expr) :
    sizeAll (nodes ++ nodes') = sizeAll nodes + sizeAll nodes' := by
  induction nodes with
  | nil => rw [List.nil_append, sizeAll, Nat.zero_add]
  | cons node nodes ih => rw [List.cons_append, sizeAll, sizeAll, ih, Nat.add_assoc]

theorem sizeAll_of_perm (h : nodes.Perm nodes') : sizeAll nodes = sizeAll nodes' := by
  induction h with
  | nil => rfl
  | cons node h ih => rw [sizeAll, sizeAll, ih]
  | swap node node' nodes =>
    simp only [sizeAll]
    omega
  | trans h h' ih ih' => exact ih.trans ih'

theorem size_literal (name : String) (nodes : List Expr) :
    (literal name nodes).size = 1 + sizeAll nodes := by
  rcases literal_cases name nodes with ⟨h, -⟩ | ⟨node, rfl, -, h⟩
  · rw [h, size]
  · rw [h, size, sizeAll, sizeAll, Nat.add_zero]

/-- What a help text counts: one for its comment, unless it is empty. -/
def helpWeight : Option String → Nat
  | some text => if text = "" then 0 else 1
  | none => 0

theorem size_documented (node : Expr) (help : Option String) :
    (node.documented help).size = helpWeight help + node.size := by
  rcases documented_cases node help with ⟨text, rfl, htext, h⟩ | ⟨rfl | rfl, h⟩
  · rw [h, size, helpWeight, if_neg htext]
  · rw [h, helpWeight, Nat.zero_add]
  · rw [h, helpWeight, if_pos rfl, Nat.zero_add]

theorem size_ofGroup (name : String) (help : Option String) (nodes : List Expr) :
    (ofGroup name help nodes).size = 1 + helpWeight help + sizeAll nodes := by
  rw [ofGroup, size_documented, size_literal, sizeAll_of_perm (sortByName_perm nodes)]
  omega

end Expr

/-! ### Functions -/

namespace Modifier

/-- A setter's path has a literal for each key but the last, each of them marked, and a reference;
a mixin's has one marker more. -/
theorem size_expand (m : Modifier) (merge : Bool) :
    (m.expand merge).size + 1 = 2 * m.target.depth + if merge then 1 else 0 := by
  obtain ⟨p, k, ⟨parents, leaf⟩⟩ := m
  induction parents with
  | nil =>
    rw [expand_leaf, TargetPath.depth_eq_parents]
    cases merge <;> rfl
  | cons s ss ih =>
    -- a parent more is a literal more and a mark around it, in a setter as in a mixin
    rw [expand_parent, TargetPath.depth_eq_parents]
    rw [TargetPath.depth_eq_parents] at ih
    simp only [Expr.size, List.length_cons] at ih ⊢
    omega

theorem size_function (m : Modifier) (name : String) (merge : Bool) :
    (m.function name merge).size = 2 * m.target.depth + 4 + if merge then 1 else 0 := by
  have hexpand := m.size_expand merge
  simp only [function, Expr.size, Expr.sizeAll]
  omega

/-- What a modifier of a path so deep counts: its setter, and its mixin if it has one. -/
def weight (m : Modifier) : Nat :=
  if m.kind.isMergeable then 4 * m.target.depth + 9 else 2 * m.target.depth + 4

theorem sizeAll_functions (m : Modifier) (name : String) :
    Expr.sizeAll (m.functions name) = m.weight := by
  have hsetter := m.size_function name false
  have hmixin := m.size_function (name ++ mixinSuffix) true
  rw [if_neg Bool.false_ne_true] at hsetter
  rw [if_pos rfl] at hmixin
  rw [functions, weight]
  cases hkind : m.kind.isMergeable with
  | false => simp [Expr.sizeAll, hsetter]
  | true =>
    simp only [Expr.sizeAll, if_pos, hsetter, hmixin]
    omega

end Modifier

/-! ### Fields -/

namespace Field

mutual

/-- What a field counts: a modifier by the depth of its path, a group by its help and its fields. -/
def weight : Field → Nat
  | .modifier m => m.weight
  | .group help fields => 1 + Expr.helpWeight help + weightAll fields

def weightAll : List (String × Field) → Nat
  | [] => 0
  | (_, field) :: rest => field.weight + weightAll rest

end

mutual

theorem sizeAll_compile (name : String) :
    (field : Field) → Expr.sizeAll (field.compile name) = field.weight
  | .modifier m => m.sizeAll_functions name
  | .group help fields => by
    rw [compile, Expr.sizeAll, Expr.sizeAll, Expr.size_ofGroup, sizeAll_compileAll fields, weight,
      Nat.add_zero]

theorem sizeAll_compileAll :
    (fields : List (String × Field)) → Expr.sizeAll (compileAll fields) = weightAll fields
  | [] => rfl
  | (name, field) :: rest => by
    rw [compileAll, Expr.sizeAll_append, sizeAll_compile name field, sizeAll_compileAll rest,
      weightAll]

end

/-! ### Listings -/

theorem weightAll_of_perm {fields fields' : List (String × Field)} (h : fields.Perm fields') :
    weightAll fields = weightAll fields' := by
  rw [← sizeAll_compileAll fields, ← sizeAll_compileAll fields']
  exact Expr.sizeAll_of_perm (compileAll_perm h)

mutual

theorem weight_of_lists : (entry field : Field) → Lists entry field → entry.weight = field.weight
  | .modifier m, .modifier m', h => congrArg Modifier.weight h
  | .group help entries, .group help' fields, h => by
    obtain ⟨rfl, shuffled, hperm, heach⟩ := h
    rw [weight, weight, weightAll_of_listsEach entries shuffled heach, weightAll_of_perm hperm]
  | .modifier _, .group .., h => h.elim
  | .group .., .modifier _, h => h.elim

theorem weightAll_of_listsEach : (entries fields : List (String × Field)) →
    ListsEach entries fields → weightAll entries = weightAll fields
  | [], [], _ => rfl
  | (_, entry) :: rest, (_, field) :: rest', h => by
    rw [weightAll, weightAll, weight_of_lists entry field h.2.1,
      weightAll_of_listsEach rest rest' h.2.2]
  | [], _ :: _, h => h.elim
  | _ :: _, [], h => h.elim

end

end Field

/-! ### Schemas -/

def Schema.weight (schema : Schema) : Nat :=
  1 + Expr.helpWeight schema.help + Field.weightAll schema.fields.toList

theorem Schema.ListedBy.weightAll {schema : Schema} {entries : List (String × Field)}
    (h : schema.ListedBy entries) :
    Field.weightAll entries = Field.weightAll schema.fields.toList := by
  obtain ⟨shuffled, hperm, heach⟩ := h
  exact (Field.weightAll_of_listsEach entries shuffled heach).trans (Field.weightAll_of_perm hperm)

/-- A node has as many nodes as its value has objects. An expanded path of `d` keys has `2 d - 1`,
and one more when it is merged. The declaration of a schema, valid or not, has as many as the schema
weighs, in whatever order its fields are listed. -/
theorem size_is_weight :
    (∀ node : Expr, node.size = node.toJson.objectCount) ∧
    (∀ m : Modifier, (m.expand false).size = 2 * m.target.depth - 1 ∧
      (m.expand true).size = 2 * m.target.depth) ∧
    ∀ (schema : Schema) (name : String), (schema.declaration name).size = schema.weight ∧
      ∀ entries, schema.ListedBy entries →
        (Expr.ofGroup name schema.help (Field.compileAll entries)).size = schema.weight := by
  refine ⟨fun node => node.objectCount_toJson.symm, fun m => ?_, fun schema name => ?_⟩
  · have hsetter := m.size_expand false
    have hmixin := m.size_expand true
    rw [if_neg Bool.false_ne_true] at hsetter
    rw [if_pos rfl] at hmixin
    omega
  · have hsize : ∀ entries, schema.ListedBy entries →
        (Expr.ofGroup name schema.help (Field.compileAll entries)).size = schema.weight := by
      intro entries h
      rw [Expr.size_ofGroup, Field.sizeAll_compileAll, h.weightAll, Schema.weight]
    exact ⟨hsize _ (Schema.listedBy_of_perm (.refl _)), hsize⟩

/-- A setter and a mixin of a path of two keys, and beside them a group that has a help text and
holds one setter, listed in descending order. -/
theorem size_podSchema :
    let schema := podSchema (some "The pod.") .object .string
    schema.ListedBy schema.fields.toList.reverse ∧
      (Expr.ofGroup "pod" none (Field.compileAll schema.fields.toList.reverse)).size =
        1 + (4 * 2 + 9) + (1 + 1 + (2 * 2 + 4)) :=
  have hlisted := Schema.listedBy_of_perm (List.reverse_perm _)
  ⟨hlisted, (size_is_weight.2.2 (podSchema (some "The pod.") .object .string) "pod").2 _ hlisted⟩

end Setters

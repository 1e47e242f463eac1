import Setters.Proofs.Expr.SortByName
import Setters.Proofs.Validation

/-!
# Compilation from unordered fields

A map of fields may hand out its entries in any order. `Field.Lists` says that a field, read off
such maps, lists another one, every group in an order of its own; `compileListed` validates and
compiles from such a listing, sorting names where order matters. `compileListed_eq` says that it
always comes to what compilation makes of the fields in order.

Validation sorts before it looks, so its verdict cannot depend on the listing. Compilation sorts
the finished declarations instead, which hides their order only because a schema without faults
has no two of one name in a group.
-/

namespace Setters

namespace Field

/-! ### Listings -/

mutual

/-- Whether the first field lists the second one: its groups hold the same fields, listed in
turn, in any order. -/
def Lists : Field → Field → Prop
  | .modifier m, .modifier m' => m = m'
  | .group help entries, .group help' fields =>
    help = help' ∧ ∃ shuffled, shuffled.Perm fields ∧ ListsEach entries shuffled
  | _, _ => False

def ListsEach : List (String × Field) → List (String × Field) → Prop
  | [], [] => True
  | (name, field) :: rest, (name', field') :: rest' =>
    name = name' ∧ Lists field field' ∧ ListsEach rest rest'
  | _, _ => False

end

mutual

theorem lists_self : (field : Field) → Lists field field
  | .modifier _ => rfl
  | .group _ fields => ⟨rfl, fields, List.Perm.refl fields, listsEach_self fields⟩

theorem listsEach_self : (fields : List (String × Field)) → ListsEach fields fields
  | [] => trivial
  | (_, field) :: rest => ⟨rfl, lists_self field, listsEach_self rest⟩

end

mutual

/-- The field with its groups in ascending order of name. -/
def sorted : Field → Field
  | .modifier m => .modifier m
  | .group help entries =>
    .group help ((sortedEach entries).mergeSort fun a b => decide (a.1 ≤ b.1))

def sortedEach : List (String × Field) → List (String × Field)
  | [] => []
  | (name, field) :: rest => (name, field.sorted) :: sortedEach rest

end

def sortedFields (entries : List (String × Field)) : List (String × Field) :=
  (sortedEach entries).mergeSort fun a b => decide (a.1 ≤ b.1)

/-! ### Sorting a listing -/

mutual

theorem sorted_eq_of_lists :
    (entry field : Field) → field.Ordered → Lists entry field → entry.sorted = field
  | .modifier m, .modifier m', _, h => congrArg Field.modifier h
  | .group help entries, .group help' fields, .group asc inner, h => by
    obtain ⟨rfl, shuffled, hperm, heach⟩ := h
    have hsame := sortedEach_eq_of_lists entries shuffled
      (fun e hmem => inner e (hperm.mem_iff.mp hmem)) heach
    rw [sorted, hsame, Text.sort_eq_of_perm (List.pairwise_map.mp asc) hperm]
  | .modifier _, .group .., _, h => h.elim
  | .group .., .modifier _, _, h => h.elim

theorem sortedEach_eq_of_lists :
    (entries fields : List (String × Field)) → (∀ e ∈ fields, e.2.Ordered) →
      ListsEach entries fields → sortedEach entries = fields
  | [], [], _, _ => rfl
  | (name, entry) :: rest, (name', field) :: rest', inner, h => by
    obtain ⟨rfl, hfield, hrest⟩ := h
    have hinner := List.forall_mem_cons.mp inner
    rw [sortedEach, sorted_eq_of_lists entry field hinner.1 hfield,
      sortedEach_eq_of_lists rest rest' hinner.2 hrest]
  | [], _ :: _, _, h => h.elim
  | _ :: _, [], _, h => h.elim

end

/-! ### Compiling a listing -/

theorem compileAll_perm {fields fields' : List (String × Field)} (h : fields.Perm fields') :
    (compileAll fields).Perm (compileAll fields') := by
  rw [compileAll_eq_flatMap, compileAll_eq_flatMap]
  exact h.flatMap_right _

/-- The declarations of a group do not depend on the order of its fields. -/
theorem ofGroup_eq_of_perm {location name : String} {help : Option String}
    {shuffled fields : List (String × Field)} (asc : Ascending fields)
    (hfaults : faultsAll location fields fields = []) (hperm : shuffled.Perm fields) :
    Expr.ofGroup name help (compileAll shuffled) = Expr.ofGroup name help (compileAll fields) := by
  have distinct : ((compileAll fields).map Expr.name).Nodup :=
    (groupClashes_eq_nil_iff_nodup location asc).mp (groupClashes_of_faultsAll hfaults)
  have hsorted := Expr.sortByName_eq_of_perm (compileAll_perm hperm) distinct
  exact Expr.ofGroup_congr name rfl hsorted

mutual

theorem compile_eq_of_lists (location : String) :
    (entry field : Field) → field.Ordered → field.faults location = [] → Lists entry field →
      ∀ name, entry.compile name = field.compile name
  | .modifier m, .modifier m', _, _, h, _ => by rw [show m = m' from h]
  | .group help entries, .group help' fields, .group asc inner, hfaults, h, name => by
    obtain ⟨rfl, shuffled, hperm, heach⟩ := h
    have hsame := compileAll_eq_of_lists location entries shuffled
      (fun e hmem => inner e (hperm.mem_iff.mp hmem))
      (fun e hmem => (faultsAll_eq_nil.mp hfaults e (hperm.mem_iff.mp hmem)).2.2) heach
    rw [compile, compile, hsame, ofGroup_eq_of_perm asc hfaults hperm]
  | .modifier _, .group .., _, _, h, _ => h.elim
  | .group .., .modifier _, _, _, h, _ => h.elim

theorem compileAll_eq_of_lists (location : String) :
    (entries fields : List (String × Field)) → (∀ e ∈ fields, e.2.Ordered) →
      (∀ e ∈ fields, e.2.faults (fieldLocation location e.1) = []) →
      ListsEach entries fields → compileAll entries = compileAll fields
  | [], [], _, _, _ => rfl
  | (name, entry) :: rest, (name', field) :: rest', inner, hfaults, h => by
    obtain ⟨rfl, hfield, hrest⟩ := h
    have hinner := List.forall_mem_cons.mp inner
    have hfaults' := List.forall_mem_cons.mp hfaults
    rw [compileAll, compileAll,
      compile_eq_of_lists (fieldLocation location name) entry field hinner.1 hfaults'.1 hfield,
      compileAll_eq_of_lists location rest rest' hinner.2 hfaults'.2 hrest]
  | [], _ :: _, _, _, h => h.elim
  | _ :: _, [], _, _, h => h.elim

end

end Field

/-! ### Listed schemas -/

/-- Validates and compiles the fields as they are listed. -/
def compileListed (name : String) (help : Option String) (entries : List (String × Field)) :
    Except ValidationFault Expr :=
  match Field.validateAll "root" [] (Field.sortedFields entries) with
  | .error fault => .error fault
  | .ok () => .ok (.ofGroup name help (Field.compileAll entries))

def Schema.ListedBy (schema : Schema) (entries : List (String × Field)) : Prop :=
  ∃ shuffled, shuffled.Perm schema.fields.toList ∧ Field.ListsEach entries shuffled

/-- The fields of a schema may be listed in any order. -/
theorem Schema.listedBy_of_perm {schema : Schema} {entries : List (String × Field)}
    (h : entries.Perm schema.fields.toList) : schema.ListedBy entries :=
  ⟨entries, h, Field.listsEach_self entries⟩

theorem Schema.sortedFields_of_listedBy {schema : Schema} {entries : List (String × Field)}
    (h : schema.ListedBy entries) : Field.sortedFields entries = schema.fields.toList := by
  have hlists : Field.Lists (.group none entries) (.group none schema.fields.toList) := ⟨rfl, h⟩
  have hsorted := Field.sorted_eq_of_lists _ _ schema.fields.ordered hlists
  exact (Field.group.inj hsorted).2

theorem Schema.declaration_of_listedBy {schema : Schema} {entries : List (String × Field)}
    (hfaults : schema.faults = []) (h : schema.ListedBy entries) (name : String) :
    Expr.ofGroup name schema.help (Field.compileAll entries) = schema.declaration name := by
  have hlists : Field.Lists (.group schema.help entries) schema.toField.val := ⟨rfl, h⟩
  have hdecls := Field.compile_eq_of_lists "root" _ _ schema.toField.property hfaults hlists name
  exact (List.cons.inj hdecls).1

/-- Compilation gives one result for all listings of a schema. -/
theorem compileListed_eq {schema : Schema} {entries : List (String × Field)}
    (h : schema.ListedBy entries) (name : String) :
    compileListed name schema.help entries = schema.compile name := by
  have hverdict : Field.validateAll "root" [] (Field.sortedFields entries) = schema.validate := by
    rw [Schema.sortedFields_of_listedBy h, Schema.validate]
  rw [compileListed, hverdict, Schema.compile]
  cases hvalid : schema.validate with
  | error fault => rfl
  | ok verdict =>
    have hfaults := faults_eq_nil_of_valid hvalid
    rw [Schema.declaration_of_listedBy hfaults h]

end Setters

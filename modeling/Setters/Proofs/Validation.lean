import Mathlib.Data.List.Lattice
import Mathlib.Data.List.Nodup
import Mathlib.Data.List.Pairwise
import Setters.Proofs.Declarations
import Setters.Proofs.Schema.Fields
import Setters.Proofs.Text.ByteOrder

/-!
# Faults of a schema

`Schema.faults` lists what is wrong with a schema without a running table of names: two fields of
a group clash when one is called like the mixin of the other. `validate_reports_first_fault` says
that validation reports the first entry of that list, that names ascend along it by their bytes,
and that a group is free of clashes exactly when its fields compile to declarations of different
names.

A clash always pairs a field with an earlier one, because a name comes before the name of its
mixin. So the table that `Field.validateAll` carries, described by `Declares`, holds what is
needed when the later field is reached, and the name of a mixin is never in it.
-/

namespace Setters

namespace Field

/-! ### The list of faults -/

/-- The clashes at the field `name` of a group: some field of the group has a mixin of this
name. -/
def clashes (location : String) (group : List (String × Field)) (name : String) :
    List ValidationFault :=
  group.filterMap fun entry =>
    if entry.2.hasMixin ∧ name = entry.1 ++ mixinSuffix then
      some (.duplicateDeclaration location name entry.1 name)
    else none

/-- The clashes between the fields of one group. -/
def groupClashes (location : String) (group : List (String × Field)) : List ValidationFault :=
  group.flatMap fun entry => clashes location group entry.1

mutual

/-- The faults of a field that stands at `location`. -/
def faults (location : String) : Field → List ValidationFault
  | .modifier m => if m.parameter = "" then [.emptyParameter location] else []
  | .group _ fields => faultsAll location fields fields

/-- The faults of some fields of the group at `location`, field by field: its name, its clashes
with the group, and what is wrong inside it. -/
def faultsAll (location : String) (group : List (String × Field)) :
    List (String × Field) → List ValidationFault
  | [] => []
  | (name, field) :: rest =>
    (if name = "" then [.emptyFieldName location] else []) ++ clashes location group name ++
      faults (fieldLocation location name) field ++ faultsAll location group rest

end

end Field

def Schema.faults (schema : Schema) : List ValidationFault :=
  Field.faultsAll "root" schema.fields.toList schema.fields.toList

/-- The verdict on a list of faults: the first one, if there is one. -/
def reportFirst : List ValidationFault → Except ValidationFault Unit
  | [] => .ok ()
  | fault :: _ => .error fault

theorem reportFirst_append (as bs : List ValidationFault) :
    reportFirst (as ++ bs) = match reportFirst as with
      | .error fault => .error fault
      | .ok () => reportFirst bs := by
  cases as with
  | nil => rfl
  | cons a as => rfl

theorem reportFirst_of_forall_eq {as : List ValidationFault} {fault : ValidationFault}
    (hmem : fault ∈ as) (hall : ∀ a ∈ as, a = fault) : reportFirst as = .error fault := by
  cases as with
  | nil => cases hmem
  | cons a as => rw [reportFirst, hall a List.mem_cons_self]

namespace Field

/-! ### Clashes -/

variable {location name owner x : String} {field : Field} {fault : ValidationFault}
  {group done rest : List (String × Field)} {declared : List (String × String)}

theorem lt_mixin (name : String) : name < name ++ mixinSuffix :=
  Text.lt_append name (by decide)

theorem mixin_inj {a b : String} : a ++ mixinSuffix = b ++ mixinSuffix ↔ a = b :=
  String.append_left_inj mixinSuffix

theorem mem_declarationNames :
    name ∈ field.declarationNames owner ↔
      name = owner ∨ field.hasMixin = true ∧ name = owner ++ mixinSuffix := by
  rw [declarationNames_eq]
  cases field.hasMixin <;> simp

theorem mem_clashes :
    fault ∈ clashes location group name ↔
      ∃ x g, (x, g) ∈ group ∧ g.hasMixin = true ∧ name = x ++ mixinSuffix ∧
        fault = .duplicateDeclaration location name x name := by
  simp only [clashes, List.mem_filterMap, Prod.exists]
  constructor
  · rintro ⟨x, g, hmem, hsome⟩
    split at hsome
    · rename_i hclash
      exact ⟨x, g, hmem, hclash.1, hclash.2, (Option.some.inj hsome).symm⟩
    · cases hsome
  · rintro ⟨x, g, hmem, hmixin, hname, rfl⟩
    exact ⟨x, g, hmem, if_pos ⟨hmixin, hname⟩⟩

theorem clashes_eq_nil_iff :
    clashes location group name = [] ↔
      ∀ x g, (x, g) ∈ group → g.hasMixin = true → name ≠ x ++ mixinSuffix := by
  rw [List.eq_nil_iff_forall_not_mem]
  constructor
  · intro h x g hmem hmixin hname
    exact h _ (mem_clashes.mpr ⟨x, g, hmem, hmixin, hname, rfl⟩)
  · intro h fault hfault
    obtain ⟨x, g, hmem, hmixin, hname, -⟩ := mem_clashes.mp hfault
    exact h x g hmem hmixin hname

/-- All clashes at one field are the same fault, as only one name extends to its name. -/
theorem reportFirst_clashes {g : Field} (hmem : (x, g) ∈ group) (hmixin : g.hasMixin = true)
    (hname : name = x ++ mixinSuffix) :
    reportFirst (clashes location group name) =
      .error (.duplicateDeclaration location name x name) := by
  apply reportFirst_of_forall_eq
  · exact mem_clashes.mpr ⟨x, g, hmem, hmixin, hname, rfl⟩
  · intro fault hfault
    obtain ⟨x', -, -, -, hname', rfl⟩ := mem_clashes.mp hfault
    rw [mixin_inj.mp (hname.symm.trans hname')]

/-! ### The table of declared names -/

/-- The table holds the names that the fields gone through declare, each beside its field. -/
def Declares (done : List (String × Field)) (declared : List (String × String)) : Prop :=
  ∀ name owner, declared.lookup name = some owner ↔
    ∃ field, (owner, field) ∈ done ∧ name ∈ field.declarationNames owner

theorem Ascending.lt_of_done (h : Ascending (done ++ (name, field) :: rest)) {g : Field}
    (hmem : (x, g) ∈ done) : x < name := by
  rw [Ascending, List.map_append, List.pairwise_append] at h
  exact h.2.2 x (List.mem_map_of_mem hmem) name (by simp)

theorem Ascending.not_lt_of_rest (h : Ascending (done ++ (name, field) :: rest)) {g : Field}
    (hmem : (x, g) ∈ (name, field) :: rest) : ¬ x < name := by
  rw [Ascending, List.map_append, List.pairwise_append] at h
  rcases List.mem_cons.mp hmem with heq | hrest
  · rw [(Prod.mk.inj heq).1]
    exact lt_irrefl name
  · obtain ⟨hbefore, -⟩ := List.pairwise_cons.mp h.2.1
    have hlt : name < x := hbefore x (List.mem_map_of_mem hrest)
    exact lt_asymm hlt

/-- The table knows the name of the next field exactly when that clashes. -/
theorem lookup_field (asc : Ascending (done ++ (name, field) :: rest))
    (inv : Declares done declared) :
    declared.lookup name = some x ↔
      ∃ g, (x, g) ∈ done ++ (name, field) :: rest ∧ g.hasMixin = true ∧
        name = x ++ mixinSuffix := by
  rw [inv]
  constructor
  · rintro ⟨g, hmem, hname⟩
    rcases mem_declarationNames.mp hname with rfl | ⟨hmixin, hname⟩
    · exact absurd (asc.lt_of_done hmem) (lt_irrefl name)
    · exact ⟨g, List.mem_append_left _ hmem, hmixin, hname⟩
  · rintro ⟨g, hmem, hmixin, hname⟩
    rcases List.mem_append.mp hmem with hdone | hrest
    · exact ⟨g, hdone, mem_declarationNames.mpr (.inr ⟨hmixin, hname⟩)⟩
    · exact absurd (hname ▸ lt_mixin x) (asc.not_lt_of_rest hrest)

/-- The table never knows the name of the next field's mixin. -/
theorem lookup_mixin (asc : Ascending (done ++ (name, field) :: rest))
    (inv : Declares done declared) : declared.lookup (name ++ mixinSuffix) = none := by
  cases hlookup : declared.lookup (name ++ mixinSuffix) with
  | none => rfl
  | some x =>
    obtain ⟨g, hmem, hname⟩ := (inv _ _).mp hlookup
    have hlt := asc.lt_of_done hmem
    rcases mem_declarationNames.mp hname with heq | ⟨-, heq⟩
    · have hmixin : name < x := heq ▸ lt_mixin name
      exact absurd (hlt.trans hmixin) (lt_irrefl x)
    · obtain rfl := mixin_inj.mp heq
      exact absurd hlt (lt_irrefl _)

theorem declare_of_known (h : declared.lookup name = some x) (names : List String) :
    declare location owner declared (name :: names) =
      .error (.duplicateDeclaration location name x owner) := by
  simp only [declare, h]

/-- Names that the table does not know are added to it. -/
theorem declare_of_unknown (location : String) (field : Field)
    (hname : declared.lookup name = none)
    (hmixin : declared.lookup (name ++ mixinSuffix) = none) :
    ∃ declared', declare location name declared (field.declarationNames name) = .ok declared' ∧
      ∀ n, declared'.lookup n =
        if n ∈ field.declarationNames name then some name else declared.lookup n := by
  have hne : name ≠ name ++ mixinSuffix := ne_of_lt (lt_mixin name)
  simp only [mem_declarationNames]
  rw [declarationNames_eq]
  cases field.hasMixin with
  | false =>
    refine ⟨(name, name) :: declared, by simp [declare, hname], fun n => ?_⟩
    by_cases hn : n = name
    · simp [hn]
    · simp [lookup_tail hn, hn]
  | true =>
    have hmixin' : ((name, name) :: declared).lookup (name ++ mixinSuffix) = none := by
      rw [lookup_tail hne.symm, hmixin]
    refine ⟨(name ++ mixinSuffix, name) :: (name, name) :: declared,
      by simp [declare, hname, hmixin'], fun n => ?_⟩
    by_cases hn : n = name
    · simp [hn, lookup_tail hne]
    · by_cases hn' : n = name ++ mixinSuffix
      · simp [hn']
      · simp [lookup_tail hn, lookup_tail hn', hn, hn']

/-- One step of validation keeps the table in line with the fields gone through. -/
theorem Declares.step (inv : Declares done declared) (location : String) (field : Field)
    (hname : declared.lookup name = none)
    (hmixin : declared.lookup (name ++ mixinSuffix) = none) :
    ∃ declared', declare location name declared (field.declarationNames name) = .ok declared' ∧
      Declares (done ++ [(name, field)]) declared' := by
  obtain ⟨declared', hok, hlookup⟩ := declare_of_unknown location field hname hmixin
  refine ⟨declared', hok, fun n o => ?_⟩
  rw [hlookup]
  constructor
  · intro hsome
    split at hsome
    · rename_i hmem
      cases hsome
      exact ⟨field, by simp, hmem⟩
    · obtain ⟨g, hdone, hmem⟩ := (inv n o).mp hsome
      exact ⟨g, List.mem_append_left _ hdone, hmem⟩
  · rintro ⟨g, hin, hmem⟩
    rcases List.mem_append.mp hin with hdone | hlast
    · have hknown := (inv n o).mpr ⟨g, hdone, hmem⟩
      have hnew : n ∉ field.declarationNames name := by
        rw [mem_declarationNames]
        rintro (rfl | ⟨-, rfl⟩)
        · rw [hname] at hknown
          cases hknown
        · rw [hmixin] at hknown
          cases hknown
      rw [if_neg hnew, hknown]
    · obtain ⟨rfl, rfl⟩ : o = name ∧ g = field := by simpa using hlast
      rw [if_pos hmem]

/-! ### Validation reports the first fault -/

theorem validate_modifier (m : Modifier) (location : String) :
    (Field.modifier m).validate location = reportFirst ((Field.modifier m).faults location) := by
  by_cases h : m.parameter = "" <;> simp [validate, faults, reportFirst, h]

theorem reportFirst_of_clash (hname : name ≠ "")
    (hclash : reportFirst (clashes location group name) = .error fault) :
    reportFirst (faultsAll location group ((name, field) :: rest)) = .error fault := by
  simp only [faultsAll, hname, if_false, List.nil_append, List.append_assoc]
  rw [reportFirst_append, hclash]

theorem reportFirst_of_no_clash (hname : name ≠ "")
    (hclashes : clashes location group name = []) :
    reportFirst (faultsAll location group ((name, field) :: rest)) =
      match reportFirst (field.faults (fieldLocation location name)) with
      | .error fault => .error fault
      | .ok () => reportFirst (faultsAll location group rest) := by
  simp only [faultsAll, hname, hclashes, if_false, List.nil_append]
  exact reportFirst_append _ _

mutual

theorem validate_eq (location : String) :
    (field : Field) → field.Ordered → field.validate location = reportFirst (field.faults location)
  | .modifier m, _ => validate_modifier m location
  | .group help fields, .group ascending inner => by
    rw [validate, faults]
    exact validateAll_eq location fields [] [] ascending inner (by simp [Declares])

-- the fields gone through are `done`, and the table holds what they declare
theorem validateAll_eq (location : String) :
    (fields done : List (String × Field)) → (declared : List (String × String)) →
      Ascending (done ++ fields) → (∀ entry ∈ fields, entry.2.Ordered) → Declares done declared →
      validateAll location declared fields =
        reportFirst (faultsAll location (done ++ fields) fields)
  | [], _, _, _, _, _ => rfl
  | (name, field) :: rest, done, declared, asc, ordered, inv => by
    have hfield : field.Ordered := ordered (name, field) List.mem_cons_self
    have hrest : ∀ entry ∈ rest, entry.2.Ordered :=
      fun entry hmem => ordered entry (List.mem_cons_of_mem _ hmem)
    by_cases hname : name = ""
    · simp [validateAll, faultsAll, reportFirst, hname]
    have hempty : name.isEmpty = false := by simpa using hname
    cases hlookup : declared.lookup name with
    | some x =>
      obtain ⟨g, hmem, hmixin, hext⟩ := (lookup_field asc inv).mp hlookup
      rw [reportFirst_of_clash hname (reportFirst_clashes hmem hmixin hext), validateAll,
        declarationNames_eq, declare_of_known hlookup]
      simp [hempty]
    | none =>
      have hclashes : clashes location (done ++ (name, field) :: rest) name = [] := by
        rw [clashes_eq_nil_iff]
        intro x g hmem hmixin hext
        have hknown := (lookup_field asc inv).mpr ⟨g, hmem, hmixin, hext⟩
        rw [hlookup] at hknown
        cases hknown
      obtain ⟨declared', hok, inv'⟩ :=
        inv.step location field hlookup (lookup_mixin asc inv)
      have hsplit : done ++ (name, field) :: rest = (done ++ [(name, field)]) ++ rest := by simp
      have hinside := validate_eq (fieldLocation location name) field hfield
      have htail := validateAll_eq location rest (done ++ [(name, field)]) declared'
        (hsplit ▸ asc) hrest inv'
      rw [reportFirst_of_no_clash hname hclashes, validateAll, hok, hsplit, ← hinside, ← htail]
      cases validate (fieldLocation location name) field <;>
        simp only [hempty, Bool.false_eq_true, if_false]

end

theorem validate_eq_reportFirst (schema : Schema) :
    schema.validate = reportFirst schema.faults := by
  obtain ⟨help, ⟨fields, ordered⟩⟩ := schema
  cases ordered with
  | group ascending inner =>
    exact validateAll_eq "root" fields [] [] ascending inner (by simp [Declares])

/-! ### Clashes and names of declarations -/

theorem groupClashes_eq_nil :
    groupClashes location group = [] ↔
      ∀ x g name field, (x, g) ∈ group → (name, field) ∈ group → g.hasMixin = true →
        name ≠ x ++ mixinSuffix := by
  simp only [groupClashes, List.flatMap_eq_nil_iff, clashes_eq_nil_iff, Prod.forall]
  constructor
  · intro h x g name field hx hname
    exact h name field hname x g hx
  · intro h name field hname x g hx
    exact h x g name field hx hname

theorem nodup_declarationNames (name : String) (field : Field) :
    (field.declarationNames name).Nodup := by
  rw [declarationNames_eq]
  cases field.hasMixin <;> simp [ne_of_lt (lt_mixin name)]

/-- A field shares a name with a later one only if that is called like its mixin. -/
theorem disjoint_names {y : String} {g : Field} (h : x < y) :
    List.Disjoint (field.declarationNames x) (g.declarationNames y) ↔
      ¬(field.hasMixin = true ∧ y = x ++ mixinSuffix) := by
  have hnames : List.Disjoint (field.declarationNames x) (g.declarationNames y) ↔
      ∀ n, n ∈ field.declarationNames x → n ∉ g.declarationNames y := Iff.rfl
  simp only [hnames, mem_declarationNames, not_or, not_and]
  constructor
  · intro hdisjoint hmixin hy
    obtain ⟨hne, -⟩ := hdisjoint y (.inr ⟨hmixin, hy⟩)
    exact hne rfl
  · rintro hclash n (rfl | ⟨hmixin, rfl⟩)
    · refine ⟨ne_of_lt h, fun _ hn => ?_⟩
      have hlt : y < n := hn ▸ lt_mixin y
      exact absurd (h.trans hlt) (lt_irrefl n)
    · refine ⟨fun hy => hclash hmixin hy.symm, fun _ hn => ?_⟩
      have heq := mixin_inj.mp hn
      exact absurd heq (ne_of_lt h)

theorem groupClashes_eq_nil_iff_nodup (location : String) (asc : Ascending group) :
    groupClashes location group = [] ↔ ((compileAll group).map Expr.name).Nodup := by
  have asc' : group.Pairwise fun a b => a.1 < b.1 := List.pairwise_map.mp asc
  rw [groupClashes_eq_nil, names_compileAll, List.nodup_flatMap]
  constructor
  · intro h
    refine ⟨fun entry _ => nodup_declarationNames entry.1 entry.2, ?_⟩
    refine asc'.imp_of_mem fun {a b} ha hb hlt => (disjoint_names hlt).mpr fun hclash => ?_
    exact h a.1 a.2 b.1 b.2 ha hb hclash.1 hclash.2
  · rintro ⟨-, hpairs⟩ x g name field hx hname hmixin hext
    have hlt : x < name := hext ▸ lt_mixin x
    have hsymm : Std.Symm (Function.onFun List.Disjoint
        fun entry : String × Field => entry.2.declarationNames entry.1) := ⟨fun _ _ h => h.symm⟩
    have hne : (x, g) ≠ (name, field) := fun heq => ne_of_lt hlt (Prod.mk.inj heq).1
    exact (disjoint_names hlt).mp (hpairs.forall hx hname hne) ⟨hmixin, hext⟩

/-- Fields are free of faults when each has a name, clashes with none and has none inside. -/
theorem faultsAll_eq_nil :
    faultsAll location group rest = [] ↔
      ∀ entry ∈ rest, entry.1 ≠ "" ∧ clashes location group entry.1 = [] ∧
        entry.2.faults (fieldLocation location entry.1) = [] := by
  induction rest with
  | nil => simp [faultsAll]
  | cons entry rest ih =>
    rw [faultsAll, List.append_eq_nil_iff, List.append_eq_nil_iff, List.append_eq_nil_iff, ih,
      List.forall_mem_cons]
    by_cases hn : entry.1 = "" <;> simp [hn, and_assoc]

theorem groupClashes_of_faultsAll (h : faultsAll location group group = []) :
    groupClashes location group = [] := by
  rw [groupClashes, List.flatMap_eq_nil_iff]
  exact fun entry hmem => (faultsAll_eq_nil.mp h entry hmem).2.1

end Field

theorem faults_eq_nil_of_valid {schema : Schema} (h : schema.validate = .ok ()) :
    schema.faults = [] := by
  rw [Field.validate_eq_reportFirst] at h
  cases hfaults : schema.faults with
  | nil => rfl
  | cons fault rest =>
    rw [hfaults] at h
    cases h

/-- A valid schema: a field with a mixin, and in a group beside it a plain field that is only
called like one. -/
def podSchema (help : Option String) (labels image : ValueKind) : Schema :=
  let path : TargetPath := ⟨[⟨"metadata", by decide⟩], ⟨"labels", by decide⟩⟩
  let spec := (Schema.mk help .empty).withField "withLabelsMixin"
    (Modifier.mk "image" image path).toField
  (Schema.empty.withField "withLabels" (Modifier.mk "labels" labels path).toField).withField
    "spec" spec.toField

end Setters

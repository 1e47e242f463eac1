import Mathlib.Data.List.Forall2
import Mathlib.Data.List.Nodup
import Mathlib.Data.String.Basic
import Setters.Schema

/-!
# Fields by name

The fields of a group as a map from names. `lookup_insert` says what adding a field does to the
map, and `ext_lookup` that the map is all there is to a list of ascending names; so the order in
which fields are added shows only where one name is used twice.
-/

namespace Setters

namespace Field

variable {name n : String} {field field' : Field} {fields fields' : List (String × Field)}

/-- The names of fields, ascending. -/
def Ascending (fields : List (String × Field)) : Prop :=
  (fields.map Prod.fst).Pairwise (· < ·)

theorem Ascending.lt_of_mem {entry : String × Field} (asc : Ascending (entry :: fields))
    (h : (n, field) ∈ fields) : entry.1 < n :=
  (List.pairwise_cons.mp asc).1 n (List.mem_map_of_mem h)

theorem Ascending.tail {entry : String × Field} (asc : Ascending (entry :: fields)) :
    Ascending fields :=
  (List.pairwise_cons.mp asc).2

theorem Ascending.unique (asc : Ascending fields) (h : (name, field) ∈ fields)
    (h' : (name, field') ∈ fields) : field = field' := by
  have hnodup : (fields.map Prod.fst).Nodup := asc.imp fun hlt => ne_of_lt hlt
  have heq := List.inj_on_of_nodup_map hnodup h h' rfl
  exact (Prod.mk.inj heq).2

/-- Ascending lists of the same names stand side by side. -/
theorem forall₂_of_ascending {R : Field → Field → Prop} (asc : Ascending fields)
    (asc' : Ascending fields')
    (h : ∀ n f, (n, f) ∈ fields → ∃ g, (n, g) ∈ fields' ∧ R f g)
    (h' : ∀ n g, (n, g) ∈ fields' → ∃ f, (n, f) ∈ fields) :
    List.Forall₂ (fun a b => a.1 = b.1 ∧ R a.2 b.2) fields fields' := by
  induction fields generalizing fields' with
  | nil =>
    cases fields' with
    | nil => exact .nil
    | cons entry' rest' =>
      obtain ⟨f, hmem⟩ := h' entry'.1 entry'.2 List.mem_cons_self
      cases hmem
  | cons entry rest ih =>
    obtain ⟨n, f⟩ := entry
    obtain ⟨g, hg, hR⟩ := h n f List.mem_cons_self
    cases fields' with
    | nil => cases hg
    | cons entry' rest' =>
      obtain ⟨n', f'⟩ := entry'
      -- each of the two first names is among the others, none before it
      have hname : n = n' := by
        obtain ⟨f₀, hf₀⟩ := h' n' f' List.mem_cons_self
        rcases List.mem_cons.mp hg with heq | hrest
        · exact (Prod.mk.inj heq).1
        · rcases List.mem_cons.mp hf₀ with heq₀ | hrest₀
          · exact (Prod.mk.inj heq₀).1.symm
          · have hlt := asc.lt_of_mem hrest₀
            have hlt' := asc'.lt_of_mem hrest
            exact absurd hlt (lt_asymm hlt')
      subst hname
      have hfg : f' = g := asc'.unique List.mem_cons_self hg
      refine .cons ⟨rfl, hfg ▸ hR⟩ (ih asc.tail asc'.tail (fun x y hmem => ?_)
        (fun x y hmem => ?_))
      · have hlt := asc.lt_of_mem hmem
        obtain ⟨z, hz, hR'⟩ := h x y (List.mem_cons_of_mem _ hmem)
        rcases List.mem_cons.mp hz with heq | hz
        · exact absurd (Prod.mk.inj heq).1.symm (ne_of_lt hlt)
        · exact ⟨z, hz, hR'⟩
      · have hlt := asc'.lt_of_mem hmem
        obtain ⟨z, hz⟩ := h' x y (List.mem_cons_of_mem _ hmem)
        rcases List.mem_cons.mp hz with heq | hz
        · exact absurd (Prod.mk.inj heq).1.symm (ne_of_lt hlt)
        · exact ⟨z, hz⟩

/-! ### Looking up a name -/

theorem lookup_tail {α : Type} {x : String} {value : α} {rest : List (String × α)}
    (h : name ≠ x) : ((x, value) :: rest).lookup name = rest.lookup name := by
  rw [List.lookup_cons, beq_eq_false_iff_ne.mpr h]

theorem lookup_eq_none_of_notMem {α : Type} {entries : List (String × α)}
    (h : name ∉ entries.map Prod.fst) : entries.lookup name = none := by
  rw [List.lookup_eq_none_iff]
  intro entry hmem
  rw [bne_iff_ne]
  rintro rfl
  exact h (List.mem_map_of_mem hmem)

/-- Of several entries under one name the last one is found from behind. -/
theorem lookup_reverse_cons {α : Type} (name x : String) (value : α) (rest : List (String × α)) :
    ((x, value) :: rest).reverse.lookup name =
      (rest.reverse.lookup name).or (if name = x then some value else none) := by
  rw [List.reverse_cons, List.lookup_append]
  by_cases h : name = x
  · rw [if_pos h, h, List.lookup_cons_self]
  · rw [if_neg h, lookup_tail h, List.lookup_nil]

theorem lookup_eq_of_perm {α : Type} {as bs : List (String × α)} (h : as.Perm bs)
    (distinct : (as.map Prod.fst).Nodup) (name : String) : as.lookup name = bs.lookup name := by
  induction h with
  | nil => rfl
  | cons entry _ ih =>
    have hrest := ih (List.nodup_cons.mp distinct).2
    rw [List.lookup_cons, List.lookup_cons, hrest]
  | swap entry entry' rest =>
    have hne : entry'.1 ≠ entry.1 := by
      intro heq
      exact (List.nodup_cons.mp distinct).1 (heq ▸ List.mem_cons_self)
    obtain ⟨x, a⟩ := entry
    obtain ⟨x', a'⟩ := entry'
    by_cases h : name = x
    · subst h
      rw [lookup_tail hne.symm, List.lookup_cons_self, List.lookup_cons_self]
    · by_cases h' : name = x'
      · subst h'
        rw [List.lookup_cons_self, lookup_tail h, List.lookup_cons_self]
      · rw [lookup_tail h', lookup_tail h, lookup_tail h, lookup_tail h']
  | trans hperm _ ih ih' =>
    have distinct' := (hperm.map Prod.fst).nodup_iff.mp distinct
    exact (ih distinct).trans (ih' distinct')

theorem lookup_map {α β : Type} (f : α → β) (name : String) (entries : List (String × α)) :
    (entries.map fun entry => (entry.1, f entry.2)).lookup name = (entries.lookup name).map f := by
  induction entries with
  | nil => rfl
  | cons entry rest ih =>
    rw [List.map_cons, List.lookup_cons, List.lookup_cons, ih]
    cases name == entry.1 <;> rfl

theorem lookup_eq_some_iff (asc : Ascending fields) :
    fields.lookup name = some field ↔ (name, field) ∈ fields := by
  induction fields with
  | nil => simp
  | cons entry rest ih =>
    obtain ⟨n, f⟩ := entry
    by_cases h : name = n
    · subst h
      rw [List.lookup_cons_self]
      constructor
      · intro hsome
        rw [Option.some.inj hsome]
        exact List.mem_cons_self
      · exact fun hmem => congrArg some (asc.unique List.mem_cons_self hmem)
    · rw [lookup_tail h, ih asc.tail, List.mem_cons, Prod.mk.injEq]
      simp [h]

/-- Fields are determined by what is found under each name. -/
theorem ext_lookup (asc : Ascending fields) (asc' : Ascending fields')
    (h : ∀ name, fields.lookup name = fields'.lookup name) : fields = fields' := by
  have hmem : ∀ n f, (n, f) ∈ fields ↔ (n, f) ∈ fields' := fun n f => by
    rw [← lookup_eq_some_iff asc, ← lookup_eq_some_iff asc', h]
  have hpairs := forall₂_of_ascending asc asc' (fun n f hf => ⟨f, (hmem n f).mp hf, rfl⟩)
    (fun n f hf => ⟨f, (hmem n f).mpr hf⟩)
  have heq := hpairs.imp fun a b hab => Prod.ext hab.1 hab.2
  exact List.forall₂_eq_eq_eq ▸ heq

theorem lookup_insert (name n : String) (field : Field) (fields : List (String × Field)) :
    (insert name field fields).lookup n =
      if n = name then some field else fields.lookup n := by
  induction fields with
  | nil =>
    by_cases h : n = name
    · rw [if_pos h, h, insert, List.lookup_cons_self]
    · rw [if_neg h, insert, lookup_tail h]
  | cons entry rest ih =>
    obtain ⟨x, f⟩ := entry
    rw [insert]
    split
    · by_cases h : n = name
      · rw [if_pos h, h, List.lookup_cons_self]
      · rw [if_neg h, lookup_tail h]
    · split
      · rename_i hx
        subst hx
        by_cases h : n = name
        · rw [if_pos h, h, List.lookup_cons_self]
        · rw [if_neg h, lookup_tail h, lookup_tail h]
      · rename_i hx
        by_cases h : n = x
        · have hne : n ≠ name := fun heq => hx (heq.symm.trans h)
          rw [if_neg hne, h, List.lookup_cons_self, List.lookup_cons_self]
        · rw [lookup_tail h, lookup_tail h, ih]

end Field

namespace Fields

theorem ascending (fields : Fields) : Field.Ascending fields.toList := by
  cases fields.ordered with
  | group ascending inner => exact ascending

theorem ext_lookup {fields fields' : Fields}
    (h : ∀ name, fields.toList.lookup name = fields'.toList.lookup name) : fields = fields' := by
  have heq := Field.ext_lookup fields.ascending fields'.ascending h
  cases fields
  cases fields'
  simpa using heq

/-- Fields of two names may be added in either order. -/
theorem insert_comm {name name' : String} (h : name ≠ name') (field field' : OrderedField)
    (fields : Fields) :
    (fields.insert name field).insert name' field' =
      (fields.insert name' field').insert name field := by
  refine ext_lookup fun n => ?_
  simp only [insert, Field.lookup_insert]
  by_cases hn : n = name
  · simp [hn, h]
  · simp [hn]

end Fields

end Setters

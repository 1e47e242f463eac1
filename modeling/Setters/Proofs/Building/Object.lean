import Mathlib.Data.Finset.Insert
import Mathlib.Data.List.Infix
import Mathlib.Data.String.Basic

/-!
# Objects that are being built

An object is a finite map from keys to values, and a value is an object or something else. A path
of keys leads from an object to a value, unless a key is missing or something else than an object
stands in the way.

`Object.alter` changes the value at the end of a path and nothing beside the path
(`lookup_alter`, `lookup_alter_beside`); what stands in the way is replaced by an object. Changes
at the ends of two paths, neither of which leads through the other, may be made in either order:
`alter_comm`.
-/

namespace Setters

/-! ### Finite maps -/

/-- A finite map from keys. -/
structure KeyMap (β : Type) where
  keys : Finset String
  value : keys → β

namespace KeyMap

variable {β : Type} {key key' : String}

def empty : KeyMap β :=
  ⟨∅, fun key => absurd key.property (Finset.notMem_empty key.val)⟩

def find (map : KeyMap β) (key : String) : Option β :=
  if h : key ∈ map.keys then some (map.value ⟨key, h⟩) else none

def set (map : KeyMap β) (key : String) (b : β) : KeyMap β where
  keys := insert key map.keys
  value := fun x =>
    if h : x.val = key then b
    else map.value ⟨x.val, Finset.mem_of_mem_insert_of_ne x.property h⟩

theorem ext_find {map map' : KeyMap β} (h : ∀ key, map.find key = map'.find key) :
    map = map' := by
  obtain ⟨keys, value⟩ := map
  obtain ⟨keys', value'⟩ := map'
  have hkeys : keys = keys' := by
    ext key
    have hkey := congrArg Option.isSome (h key)
    by_cases hmem : key ∈ keys <;> by_cases hmem' : key ∈ keys' <;>
      simp_all [find]
  subst hkeys
  have hvalue : value = value' := by
    funext key
    have hkey := h key.val
    simpa [find, key.property] using hkey
  rw [hvalue]

theorem find_empty (key : String) : (empty : KeyMap β).find key = none :=
  rfl

theorem find_set (map : KeyMap β) (key : String) (b : β) (key' : String) :
    (map.set key b).find key' = if key' = key then some b else map.find key' := by
  by_cases h : key' = key
  · simp [find, set, h]
  · simp [find, set, h]

theorem find_set_self (map : KeyMap β) (key : String) (b : β) :
    (map.set key b).find key = some b := by
  rw [find_set, if_pos rfl]

theorem find_set_of_ne (h : key' ≠ key) (map : KeyMap β) (b : β) :
    (map.set key b).find key' = map.find key' := by
  rw [find_set, if_neg h]

theorem set_set (map : KeyMap β) (key : String) (a b : β) :
    (map.set key a).set key b = map.set key b := by
  refine ext_find fun x => ?_
  by_cases h : x = key <;> simp only [find_set, h, if_true, if_false]

theorem set_comm (h : key ≠ key') (map : KeyMap β) (a b : β) :
    (map.set key a).set key' b = (map.set key' b).set key a := by
  refine ext_find fun x => ?_
  by_cases hx : x = key
  · subst hx
    rw [find_set_of_ne h, find_set_self, find_set_self]
  · rw [find_set_of_ne hx]
    simp only [find_set, hx, if_false]

end KeyMap

/-! ### Values and paths -/

/-- An object, or something else. -/
inductive Value (α : Type) where
  | other (a : α)
  | object (entries : KeyMap (Value α))

abbrev Object (α : Type) : Type :=
  KeyMap (Value α)

variable {α : Type}

def Value.lookup : Value α → List String → Option (Value α)
  | value, [] => some value
  | .object o, key :: path => (o.find key).bind fun value => value.lookup path
  | .other _, _ :: _ => none

namespace Object

def lookup (o : Object α) (path : List String) : Option (Value α) :=
  (Value.object o).lookup path

/-- The object under a key; the empty one when the key is missing or has something else. -/
def inner (o : Object α) (key : String) : Object α :=
  match o.find key with
  | some (.object inner) => inner
  | _ => .empty

/-- Changes the value under `key` in the object at the end of `parents`. Objects that are missing
on the way are made, and what else stands there is replaced by them. -/
def alter (change : Option (Value α) → Value α) (key : String) :
    List String → Object α → Object α
  | [], o => o.set key (change (o.find key))
  | parent :: parents, o => o.set parent (.object (alter change key parents (o.inner parent)))

variable {change change' : Option (Value α) → Value α} {key key' : String}

theorem lookup_cons (o : Object α) (key : String) (path : List String) :
    o.lookup (key :: path) = (o.find key).bind fun value => value.lookup path := by
  rw [lookup, Value.lookup]

theorem lookup_singleton (o : Object α) (key : String) : o.lookup [key] = o.find key := by
  rw [lookup_cons]
  cases o.find key with
  | none => rfl
  | some value => rw [Option.bind_some, Value.lookup]

theorem inner_set_self (o o' : Object α) (key : String) :
    inner (o.set key (.object o')) key = o' := by
  rw [inner, KeyMap.find_set_self]

theorem inner_set_of_ne (h : key' ≠ key) (o : Object α) (value : Value α) :
    inner (o.set key value) key' = o.inner key' := by
  rw [inner, KeyMap.find_set_of_ne h, inner]

/-- Below a key lies what lies in the object under it. -/
theorem lookup_inner (o : Object α) (key : String) {path : List String} (h : path ≠ []) :
    (o.inner key).lookup path = o.lookup (key :: path) := by
  obtain ⟨first, rest, rfl⟩ := List.exists_cons_of_ne_nil h
  rw [lookup_cons o, inner]
  cases hfind : o.find key with
  | none => rw [lookup_cons, KeyMap.find_empty, Option.bind_none, Option.bind_none]
  | some value =>
    cases value with
    | other a =>
      rw [lookup_cons, KeyMap.find_empty, Option.bind_some, Value.lookup, Option.bind_none]
    | object o' => rw [Option.bind_some, lookup]

theorem lookup_set_object (o o' : Object α) (key : String) (path : List String) :
    lookup (o.set key (.object o')) (key :: path) = o'.lookup path := by
  rw [lookup_cons, KeyMap.find_set_self, Option.bind_some, lookup]

/-! ### Changes at the end of a path -/

theorem lookup_alter (change : Option (Value α) → Value α) (key : String)
    (parents : List String) (o : Object α) :
    (o.alter change key parents).lookup (parents ++ [key]) =
      some (change (o.lookup (parents ++ [key]))) := by
  induction parents generalizing o with
  | nil => rw [alter, List.nil_append, lookup_singleton, lookup_singleton, KeyMap.find_set_self]
  | cons parent parents ih =>
    have hpath : parents ++ [key] ≠ [] := by simp
    rw [alter, List.cons_append, lookup_set_object, ih, lookup_inner o parent hpath]

/-- What lies neither on a path nor beyond its end stays as it is. -/
theorem lookup_alter_beside {parents path : List String} (h : ¬path <+: parents ++ [key])
    (h' : ¬parents ++ [key] <+: path) (o : Object α) :
    (o.alter change key parents).lookup path = o.lookup path := by
  induction parents generalizing path o with
  | nil =>
    cases path with
    | nil => exact absurd (List.nil_prefix) h
    | cons first rest =>
      have hne : first ≠ key := by
        rintro rfl
        exact h' (List.prefix_append [first] rest)
      rw [alter, lookup_cons, lookup_cons, KeyMap.find_set_of_ne hne]
  | cons parent parents ih =>
    cases path with
    | nil => exact absurd (List.nil_prefix) h
    | cons first rest =>
      rw [alter]
      by_cases hfirst : first = parent
      · subst hfirst
        rw [List.cons_append, List.cons_prefix_cons] at h h'
        have hrest : ¬rest <+: parents ++ [key] := fun hpre => h ⟨rfl, hpre⟩
        have hrest' : ¬parents ++ [key] <+: rest := fun hpre => h' ⟨rfl, hpre⟩
        have hpath : rest ≠ [] := by
          rintro rfl
          exact hrest List.nil_prefix
        rw [lookup_set_object, ih hrest hrest', lookup_inner o first hpath]
      · rw [lookup_cons, lookup_cons, KeyMap.find_set_of_ne hfirst]

/-- Two changes at the end of one path are one. -/
theorem alter_alter (change change' : Option (Value α) → Value α) (key : String)
    (parents : List String) (o : Object α) :
    (o.alter change key parents).alter change' key parents =
      o.alter (fun old => change' (some (change old))) key parents := by
  induction parents generalizing o with
  | nil => simp only [alter, KeyMap.find_set_self, KeyMap.set_set]
  | cons parent parents ih => simp only [alter, inner_set_self, KeyMap.set_set, ih]

/-- Changes at the ends of two paths, neither of which leads through the other. -/
theorem alter_comm {parents parents' : List String}
    (h : ¬parents ++ [key] <+: parents' ++ [key'])
    (h' : ¬parents' ++ [key'] <+: parents ++ [key]) (o : Object α) :
    (o.alter change key parents).alter change' key' parents' =
      (o.alter change' key' parents').alter change key parents := by
  induction parents generalizing parents' o with
  | nil =>
    cases parents' with
    | nil =>
      have hne : key ≠ key' := by
        rintro rfl
        exact h (List.prefix_refl _)
      simp only [alter, KeyMap.find_set_of_ne hne, KeyMap.find_set_of_ne hne.symm]
      exact KeyMap.set_comm hne o _ _
    | cons parent' parents' =>
      have hne : key ≠ parent' := by
        rintro rfl
        have hprefix : [key] <+: key :: (parents' ++ [key']) := List.prefix_append [key] _
        exact h hprefix
      simp only [alter, KeyMap.find_set_of_ne hne, inner_set_of_ne hne.symm]
      exact KeyMap.set_comm hne o _ _
  | cons parent parents ih =>
    cases parents' with
    | nil =>
      have hne : parent ≠ key' := by
        rintro rfl
        have hprefix : [parent] <+: parent :: (parents ++ [key]) := List.prefix_append [parent] _
        exact h' hprefix
      simp only [alter, KeyMap.find_set_of_ne hne.symm, inner_set_of_ne hne]
      exact KeyMap.set_comm hne o _ _
    | cons parent' parents' =>
      -- below one parent the paths part further down; different parents are different keys
      by_cases hparent : parent = parent'
      · subst hparent
        simp only [List.cons_append, List.cons_prefix_cons, true_and] at h h'
        simp only [alter, inner_set_self, KeyMap.set_set, ih h h']
      · simp only [alter, inner_set_of_ne hparent, inner_set_of_ne (Ne.symm hparent)]
        exact KeyMap.set_comm hparent o _ _

end Object

end Setters

import Setters.Proofs.Json.Written

/-!
# The value of a written document

`Written.value?` forgets how a value is written: the letters of its literals and numbers. It has
no value when an escape is half of a character and has no other half beside it, or when a number
is out of range. Nesting is the same before and after: `depth_of_value?`.
-/

namespace Setters.Json

/-! ### Nesting -/

mutual

/-- How deep the brackets of a value nest. -/
def depth : Json → Nat
  | .array items => depthItems items + 1
  | .object members => depthMembers members + 1
  | _ => 0

def depthItems : List Json → Nat
  | [] => 0
  | item :: items => max (depth item) (depthItems items)

def depthMembers : List (String × Json) → Nat
  | [] => 0
  | (_, value) :: members => max (depth value) (depthMembers members)

end

namespace Written

mutual

/-- How deep the brackets of a written value nest. -/
def depth : Written → Nat
  | .array items => depthItems items + 1
  | .object members => depthMembers members + 1
  | _ => 0

def depthItems : List Written → Nat
  | [] => 0
  | item :: items => max (depth item) (depthItems items)

def depthMembers : List (List Piece × Written) → Nat
  | [] => 0
  | (_, value) :: members => max (depth value) (depthMembers members)

end

end Written

/-! ### Values -/

/-- The number that a literal stands for, unless it is out of range. -/
def NumberLiteral.value? (literal : NumberLiteral) : Option Number :=
  match readScalar literal.chars with
  | .ok (.number n, []) => some n
  | _ => none

namespace Written

mutual

def value? : Written → Option Json
  | .null => some .null
  | .boolean b => some (.boolean b)
  | .number literal => literal.value?.map .number
  | .string pieces => (textOf pieces).map .string
  | .array items => (items? items).map .array
  | .object members => (members? members).map .object

def items? : List Written → Option (List Json)
  | [] => some []
  | item :: items => (value? item).bind fun v => (items? items).map (v :: ·)

def members? : List (List Piece × Written) → Option (List (String × Json))
  | [] => some []
  | (key, value) :: members =>
    (textOf key).bind fun word => (value? value).bind fun v =>
      (members? members).map ((word, v) :: ·)

end

variable {value : Written} {v : Json} {items : List Written} {members : List (List Piece × Written)}

theorem items?_cons_eq_some_iff {item : Written} {vs : List Json} :
    items? (item :: items) = some vs ↔
      ∃ v rest, value? item = some v ∧ items? items = some rest ∧ vs = v :: rest := by
  simp only [items?, Option.bind_eq_some_iff, Option.map_eq_some_iff]
  constructor
  · rintro ⟨v, hv, rest, hrest, rfl⟩
    exact ⟨v, rest, hv, hrest, rfl⟩
  · rintro ⟨v, rest, hv, hrest, rfl⟩
    exact ⟨v, hv, rest, hrest, rfl⟩

theorem members?_cons_eq_some_iff {key : List Piece} {vs : List (String × Json)} :
    members? ((key, value) :: members) = some vs ↔
      ∃ word v rest, textOf key = some word ∧ value? value = some v ∧
        members? members = some rest ∧ vs = (word, v) :: rest := by
  simp only [members?, Option.bind_eq_some_iff, Option.map_eq_some_iff]
  constructor
  · rintro ⟨word, hword, v, hv, rest, hrest, rfl⟩
    exact ⟨word, v, rest, hword, hv, hrest, rfl⟩
  · rintro ⟨word, v, rest, hword, hv, hrest, rfl⟩
    exact ⟨word, hword, v, hv, rest, hrest, rfl⟩

theorem value?_eq_null_iff : value.value? = some .null ↔ value = .null := by
  cases value <;> simp [value?]

theorem value?_eq_string_iff {text : String} :
    value.value? = some (.string text) ↔
      ∃ pieces, value = .string pieces ∧ textOf pieces = some text := by
  cases value <;> simp [value?]

theorem value?_eq_object_iff {vs : List (String × Json)} :
    value.value? = some (.object vs) ↔
      ∃ members, value = .object members ∧ members? members = some vs := by
  cases value <;> simp [value?]

mutual

theorem depth_of_value? :
    (value : Written) → (v : Json) → value.value? = some v → v.depth = value.depth
  | .null, _, h => by
    obtain rfl := Option.some.inj h
    rfl
  | .boolean _, _, h => by
    obtain rfl := Option.some.inj h
    rfl
  | .number _, _, h => by
    obtain ⟨n, -, rfl⟩ := Option.map_eq_some_iff.mp h
    rfl
  | .string _, _, h => by
    obtain ⟨text, -, rfl⟩ := Option.map_eq_some_iff.mp h
    rfl
  | .array items, _, h => by
    obtain ⟨vs, hvs, rfl⟩ := Option.map_eq_some_iff.mp h
    rw [Json.depth, Written.depth, depthItems_of_items? items vs hvs]
  | .object members, _, h => by
    obtain ⟨vs, hvs, rfl⟩ := Option.map_eq_some_iff.mp h
    rw [Json.depth, Written.depth, depthMembers_of_members? members vs hvs]

theorem depthItems_of_items? :
    (items : List Written) → (vs : List Json) → items? items = some vs →
      Json.depthItems vs = depthItems items
  | [], _, h => by
    obtain rfl := Option.some.inj h
    rfl
  | item :: items, _, h => by
    obtain ⟨v, rest, hv, hrest, rfl⟩ := items?_cons_eq_some_iff.mp h
    rw [Json.depthItems, depthItems, depth_of_value? item v hv,
      depthItems_of_items? items rest hrest]

theorem depthMembers_of_members? :
    (members : List (List Piece × Written)) → (vs : List (String × Json)) →
      members? members = some vs → Json.depthMembers vs = depthMembers members
  | [], _, h => by
    obtain rfl := Option.some.inj h
    rfl
  | (key, value) :: members, _, h => by
    obtain ⟨word, v, rest, -, hv, hrest, rfl⟩ := members?_cons_eq_some_iff.mp h
    rw [Json.depthMembers, depthMembers, depth_of_value? value v hv,
      depthMembers_of_members? members rest hrest]

end

end Written

end Setters.Json

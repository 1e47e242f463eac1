import Setters.Expansion
import Setters.Proofs.TargetPath.Composition

/-!
# Expanded paths

`Modifier.expand` builds the literals of a path from the leaf outward; `expand_leaf` and
`expand_parent` give the same tree from the outside in, one literal for each parent. Read this
way, an expansion shows its path, its parameter and whether it belongs to a mixin: `expand_inj`.
The place of the innermost marker alone tells a setter from a mixin.

`expand_topDown` says the same of paths as they are written: what is before the first dot names
the outermost literal, and what is behind it is expanded inside.
-/

namespace Setters.Modifier

variable {p p' : String} {k k' : ValueKind} {s leaf leaf' : Identifier} {ss ss' : List Identifier}

theorem expand_leaf (p : String) (k : ValueKind) (leaf : Identifier) (merge : Bool) :
    (Modifier.mk p k ⟨[], leaf⟩).expand merge =
      if merge then .merge (.ref leaf.name p) else .ref leaf.name p := by
  cases merge <;> rfl

theorem expand_parent (p : String) (k : ValueKind) (s : Identifier) (ss : List Identifier)
    (leaf : Identifier) (merge : Bool) :
    (Modifier.mk p k ⟨s :: ss, leaf⟩).expand merge =
      .merge (.concise s.name ((Modifier.mk p k ⟨ss, leaf⟩).expand merge)) := by
  -- the fold meets the outermost parent last, when it has gone through all the others
  have hlevels : (s :: ss).reverse.zipIdx = ss.reverse.zipIdx ++ [(s, ss.length)] := by
    rw [List.reverse_cons, List.zipIdx_append]
    simp
  have hmarked : (decide (ss.length > 0) || merge) = (!ss.isEmpty || merge) := by
    cases ss <;> simp
  simp only [expand, hlevels, List.foldl_append, List.foldl_cons, List.foldl_nil, hmarked]
  rfl

/-- Two identifiers of one name are one. -/
theorem identifier_ext {s t : Identifier} (h : s.name = t.name) : s = t := by
  cases s
  cases t
  simpa using h

/-- An expanded lone key is a reference, marked or not; an expanded longer path is a marked
literal. -/
theorem expand_leaf_ne_parent (merge merge' : Bool) :
    (Modifier.mk p k ⟨[], leaf⟩).expand merge ≠
      (Modifier.mk p' k' ⟨s :: ss, leaf'⟩).expand merge' := by
  rw [expand_leaf, expand_parent]
  cases merge <;> simp

theorem expand_leaf_inj {merge merge' : Bool}
    (h : (Modifier.mk p k ⟨[], leaf⟩).expand merge =
      (Modifier.mk p' k' ⟨[], leaf'⟩).expand merge') :
    leaf = leaf' ∧ p = p' ∧ merge = merge' := by
  rw [expand_leaf, expand_leaf] at h
  cases merge <;> cases merge' <;> simp at h
  · exact ⟨identifier_ext h.1, h.2, rfl⟩
  · exact ⟨identifier_ext h.1, h.2, rfl⟩

theorem expand_segments_inj {merge merge' : Bool}
    (h : (Modifier.mk p k ⟨ss, leaf⟩).expand merge =
      (Modifier.mk p' k' ⟨ss', leaf'⟩).expand merge') :
    ss = ss' ∧ leaf = leaf' ∧ p = p' ∧ merge = merge' := by
  induction ss generalizing ss' with
  | nil =>
    cases ss' with
    | nil => exact ⟨rfl, expand_leaf_inj h⟩
    | cons s' ss' => exact absurd h (expand_leaf_ne_parent merge merge')
  | cons s ss ih =>
    cases ss' with
    | nil => exact absurd h.symm (expand_leaf_ne_parent merge' merge)
    | cons s' ss' =>
      rw [expand_parent, expand_parent, Expr.merge.injEq, Expr.concise.injEq] at h
      obtain ⟨hss, hrest⟩ := ih h.2
      exact ⟨by rw [identifier_ext h.1, hss], hrest⟩

/-- An expansion shows the path, the parameter and whether values are merged at the leaf. -/
theorem expand_inj {m m' : Modifier} {merge merge' : Bool}
    (h : m.expand merge = m'.expand merge') :
    m.target = m'.target ∧ m.parameter = m'.parameter ∧ merge = merge' := by
  obtain ⟨p, k, ⟨ss, leaf⟩⟩ := m
  obtain ⟨p', k', ⟨ss', leaf'⟩⟩ := m'
  obtain ⟨rfl, rfl, hrest⟩ := expand_segments_inj h
  exact ⟨rfl, hrest⟩

/-- A function shows its name and what it is the function of. -/
theorem function_inj {n n' : String} {m m' : Modifier} {merge merge' : Bool}
    (h : m.function n merge = m'.function n' merge') :
    n = n' ∧ m.target = m'.target ∧ m.parameter = m'.parameter ∧ merge = merge' := by
  simp only [function, Expr.func.injEq, Expr.concise.injEq, true_and] at h
  exact ⟨h.1, expand_inj h.2.2⟩

/-- A function does not depend on the kind of its value. -/
theorem function_congr {m m' : Modifier} (htarget : m.target = m'.target)
    (hparameter : m.parameter = m'.parameter) (n : String) (merge : Bool) :
    m.function n merge = m'.function n merge := by
  simp only [function, expand, htarget, hparameter]

/-! ### Paths as they are written -/

theorem expand_of_lone {m : Modifier} (h : m.target.text = s.name) (merge : Bool) :
    m.expand merge = if merge then .merge (.ref s.name m.parameter) else .ref s.name m.parameter := by
  obtain ⟨p, k, target⟩ := m
  have hlone : (TargetPath.mk [] s).text = s.name := TargetPath.text_of_lone rfl
  obtain rfl : target = ⟨[], s⟩ := TargetPath.text_inj (h.trans hlone.symm)
  exact expand_leaf p k s merge

theorem expand_of_dot {m inner : Modifier} (hparameter : inner.parameter = m.parameter)
    (h : m.target.text = s.name ++ "." ++ inner.target.text) (merge : Bool) :
    m.expand merge = .merge (.concise s.name (inner.expand merge)) := by
  obtain ⟨p, k, target⟩ := m
  obtain ⟨p', k', ⟨ss, leaf⟩⟩ := inner
  have hbelow := TargetPath.text_below s ⟨ss, leaf⟩
  obtain rfl : p' = p := hparameter
  obtain rfl : target = ⟨s :: ss, leaf⟩ := TargetPath.text_inj (h.trans hbelow.symm)
  exact expand_parent p' k s ss leaf merge

/-- A path of one segment becomes a reference, and a longer one a marked literal of its first
segment around what is made of the rest; so whatever is expanded can be read back. -/
theorem expand_topDown (m : Modifier) (merge : Bool) :
    (∀ s : Identifier, m.target.text = s.name →
      m.expand merge =
        if merge then .merge (.ref s.name m.parameter) else .ref s.name m.parameter) ∧
    (∀ (s : Identifier) (inner : Modifier), inner.parameter = m.parameter →
      m.target.text = s.name ++ "." ++ inner.target.text →
        m.expand merge = .merge (.concise s.name (inner.expand merge))) ∧
    ((∃ s : Identifier, m.target.text = s.name) ∨
      ∃ (s : Identifier) (inner : TargetPath), m.target.text = s.name ++ "." ++ inner.text) ∧
    ∀ (m' : Modifier) (merge' : Bool), m.expand merge = m'.expand merge' →
      m.target = m'.target ∧ m.parameter = m'.parameter ∧ merge = merge' := by
  refine ⟨?_, ?_, TargetPath.text_cases m.target, ?_⟩
  · intro s h
    exact expand_of_lone h merge
  · intro s inner hparameter h
    exact expand_of_dot hparameter h merge
  · intro m' merge' h
    exact expand_inj h

/-- The setter of `spec.template.spec`: the outer two literals are marked, the leaf is not. The
kind of the value leaves no trace, while the path and the parameter do. -/
theorem expand_podTemplate :
    let spec : Identifier := ⟨"spec", by decide⟩
    let template : Identifier := ⟨"template", by decide⟩
    let whole (kind : ValueKind) : Modifier := ⟨"x", kind, ⟨[spec, template], spec⟩⟩
    (whole .object).expand false =
        .merge (.concise "spec" (.merge (.concise "template" (.ref "spec" "x")))) ∧
      (whole .object).expand false = (whole .array).expand false ∧
      (whole .object).target = (whole .array).target := by
  intro spec template whole
  let below : Modifier := ⟨"x", .array, ⟨[template], spec⟩⟩
  let lone : Modifier := ⟨"x", .string, ⟨[], spec⟩⟩
  have hwhole := (expand_topDown (whole .object) false).2.1 spec below rfl (by decide)
  have hbelow := (expand_topDown below false).2.1 template lone rfl (by decide)
  have hlone := (expand_topDown lone false).1 spec (by decide)
  have hkind : (whole .object).expand false = (whole .array).expand false := rfl
  have htarget := ((expand_topDown (whole .object) false).2.2.2 (whole .array) false hkind).1
  rw [hbelow, hlone] at hwhole
  exact ⟨hwhole, hkind, htarget⟩

end Setters.Modifier

import Setters.Proofs.TargetPath.Reading

/-!
# Paths within paths

Two texts with a dot between them are a path exactly when both are paths, whose segments then
follow on each other. The other way round a path of more than one segment comes apart at its last
dot, into a path and a leaf. `parse_composes` states both.

Everything goes back to the pieces between dots: a text is read as the path whose segments are
these (`parse_eq_ok_iff_splitOn`), and the pieces of two texts joined by a dot are those of the
one and then those of the other.
-/

namespace Setters

/-! ### The last separator -/

namespace Text

variable {separator : Char} {behind : List Char}

/-- What stands before the last separator and what stands behind it, if there is one. -/
def cutLast (separator : Char) : List Char → Option (List Char × List Char)
  | [] => none
  | c :: cs =>
    match cutLast separator cs with
    | some (before, behind) => some (c :: before, behind)
    | none => if c = separator then some ([], cs) else none

theorem cutLast_of_notMem (h : separator ∉ behind) : cutLast separator behind = none := by
  induction behind with
  | nil => rfl
  | cons c cs ih =>
    rw [List.mem_cons, not_or] at h
    have hcut := ih h.2
    simp [cutLast, hcut, Ne.symm h.1]

theorem cutLast_append (h : separator ∉ behind) (before : List Char) :
    cutLast separator (before ++ separator :: behind) = some (before, behind) := by
  induction before with
  | nil => simp [cutLast, cutLast_of_notMem h]
  | cons c cs ih => simp [cutLast, ih]

end Text

namespace TargetPath

variable {p q text : String} {target outer inner : TargetPath}

/-! ### Joining -/

theorem parse_eq_ok_iff_splitOn :
    parse text = .ok target ↔
      text.toList.splitOn '.' = target.segments.map fun segment => segment.name.toList := by
  rw [parse_eq_ok_iff]
  constructor
  · rintro rfl
    exact splitOn_text target
  · intro h
    have htext : target.text.toList = text.toList := by
      calc target.text.toList
          = ['.'].intercalate (target.segments.map fun segment => segment.name.toList) :=
            toList_join target.segments
        _ = ['.'].intercalate (text.toList.splitOn '.') := by rw [h]
        _ = text.toList := List.intercalate_splitOn '.'
    exact String.toList_inj.mp htext

theorem splitOn_dot (p q : String) :
    (p ++ "." ++ q).toList.splitOn '.' = p.toList.splitOn '.' ++ q.toList.splitOn '.' := by
  have htext : (p ++ "." ++ q).toList = p.toList ++ '.' :: q.toList := by
    simp [String.toList_append]
  rw [htext, List.splitOn_append_cons_self]

theorem exists_of_segments {segments : List Identifier} (h : segments ≠ []) :
    ∃ target : TargetPath, target.segments = segments := by
  cases segments with
  | nil => exact absurd rfl h
  | cons s ss => exact ⟨ofSegments s ss, segments_ofSegments s ss⟩

/-- Two texts with a dot between them are read one after the other. -/
theorem parse_dot_iff :
    parse (p ++ "." ++ q) = .ok target ↔
      ∃ outer inner, parse p = .ok outer ∧ parse q = .ok inner ∧
        target.segments = outer.segments ++ inner.segments := by
  simp only [parse_eq_ok_iff_splitOn, splitOn_dot]
  constructor
  · intro h
    obtain ⟨front, back, hsegments, hfront, hback⟩ := List.map_eq_append_iff.mp h.symm
    have hp : front ≠ [] := by
      rintro rfl
      exact List.splitOn_ne_nil '.' p.toList hfront.symm
    have hq : back ≠ [] := by
      rintro rfl
      exact List.splitOn_ne_nil '.' q.toList hback.symm
    obtain ⟨outer, rfl⟩ := exists_of_segments hp
    obtain ⟨inner, rfl⟩ := exists_of_segments hq
    exact ⟨outer, inner, hfront.symm, hback.symm, hsegments⟩
  · rintro ⟨outer, inner, hp, hq, hsegments⟩
    rw [hsegments, List.map_append, hp, hq]

theorem exists_parse_dot_iff :
    (∃ target, parse (p ++ "." ++ q) = .ok target) ↔
      (∃ outer, parse p = .ok outer) ∧ ∃ inner, parse q = .ok inner := by
  constructor
  · rintro ⟨target, h⟩
    obtain ⟨outer, inner, hp, hq, -⟩ := parse_dot_iff.mp h
    exact ⟨⟨outer, hp⟩, inner, hq⟩
  · rintro ⟨⟨outer, hp⟩, inner, hq⟩
    have hne : outer.segments ++ inner.segments ≠ [] :=
      List.append_ne_nil_of_left_ne_nil outer.segments_ne_nil inner.segments
    obtain ⟨target, hsegments⟩ := exists_of_segments hne
    exact ⟨target, parse_dot_iff.mpr ⟨outer, inner, hp, hq, hsegments⟩⟩

theorem segments_of_parse_dot (h : parse (p ++ "." ++ q) = .ok target)
    (hp : parse p = .ok outer) (hq : parse q = .ok inner) :
    target.segments = outer.segments ++ inner.segments := by
  obtain ⟨outer', inner', hp', hq', hsegments⟩ := parse_dot_iff.mp h
  obtain rfl : outer = outer' := Except.ok.inj (hp.symm.trans hp')
  obtain rfl : inner = inner' := Except.ok.inj (hq.symm.trans hq')
  exact hsegments

/-! ### Taking off the leaf -/

theorem snd_splitLeaf (target : TargetPath) : target.splitLeaf.2 = target.leaf := by
  obtain ⟨parents, leaf⟩ := target
  cases parents <;> rfl

theorem splitLeaf_eq_none_iff : target.splitLeaf.1 = none ↔ target.parents = [] := by
  obtain ⟨parents, leaf⟩ := target
  cases parents <;> simp [splitLeaf]

theorem segments_of_splitLeaf (h : target.splitLeaf.1 = some outer) :
    outer.segments = target.parents := by
  obtain ⟨parents, leaf⟩ := target
  cases parents with
  | nil => cases h
  | cons s ss =>
    obtain rfl : ofSegments s ss = outer := Option.some.inj h
    exact segments_ofSegments s ss

theorem text_of_lone (h : target.parents = []) : target.text = target.leaf.name := by
  simp [text, segments, join, h]

theorem text_of_parents (h : outer.segments = target.parents) :
    target.text = outer.text ++ "." ++ target.leaf.name := by
  let lone : TargetPath := ⟨[], target.leaf⟩
  have hlone : parse target.leaf.name = .ok lone := parse_eq_ok_iff.mpr (text_of_lone rfl)
  have hsegments : target.segments = outer.segments ++ lone.segments := by
    rw [h]
    rfl
  exact parse_eq_ok_iff.mp (parse_dot_iff.mpr ⟨outer, lone, outer.parse_text, hlone, hsegments⟩)

theorem text_below (s : Identifier) (inner : TargetPath) :
    (TargetPath.mk (s :: inner.parents) inner.leaf).text = s.name ++ "." ++ inner.text := by
  let lone : TargetPath := ⟨[], s⟩
  have hlone : parse s.name = .ok lone := parse_eq_ok_iff.mpr (text_of_lone rfl)
  exact parse_eq_ok_iff.mp (parse_dot_iff.mpr ⟨lone, inner, hlone, inner.parse_text, rfl⟩)

/-- A text is one segment, or a segment, a dot and the text of a path. -/
theorem text_cases (target : TargetPath) :
    (∃ s : Identifier, target.text = s.name) ∨
      ∃ (s : Identifier) (inner : TargetPath), target.text = s.name ++ "." ++ inner.text := by
  obtain ⟨parents, leaf⟩ := target
  cases parents with
  | nil => exact .inl ⟨leaf, text_of_lone rfl⟩
  | cons s ss => exact .inr ⟨s, ⟨ss, leaf⟩, text_below s ⟨ss, leaf⟩⟩

theorem depth_eq_parents (target : TargetPath) : target.depth = target.parents.length + 1 := by
  simp [depth, segments]

/-- The last dot of the text is where the leaf is taken off. -/
theorem cutLast_text (target : TargetPath) :
    Text.cutLast '.' target.text.toList = target.splitLeaf.1.map fun outer =>
      (outer.text.toList, target.splitLeaf.2.name.toList) := by
  have hdot := target.leaf.dot_notMem
  rw [snd_splitLeaf]
  cases hsplit : target.splitLeaf.1 with
  | none =>
    rw [text_of_lone (splitLeaf_eq_none_iff.mp hsplit), Text.cutLast_of_notMem hdot,
      Option.map_none]
  | some outer =>
    have htext : target.text.toList = outer.text.toList ++ '.' :: target.leaf.name.toList := by
      rw [text_of_parents (segments_of_splitLeaf hsplit)]
      simp [String.toList_append]
    rw [htext, Text.cutLast_append hdot, Option.map_some]

theorem splitOn_parents (h : target.splitLeaf.1 = some outer) :
    outer.text.toList.splitOn '.' ++ [target.splitLeaf.2.name.toList] =
      target.segments.map fun segment => segment.name.toList := by
  rw [splitOn_text, segments_of_splitLeaf h, snd_splitLeaf, segments, List.map_append]
  rfl

theorem depth_parents (h : target.splitLeaf.1 = some outer) : outer.depth + 1 = target.depth := by
  rw [depth, segments_of_splitLeaf h, depth_eq_parents]

/-- How a path lies in its text: cut at every dot into segments, at the last dot into the path of
its parents and the leaf. -/
structure CutFrom (text : String) (target : TargetPath) : Prop where
  segments_eq : target.segments.map (fun segment => segment.name.toList) = text.toList.splitOn '.'
  joined : ".".intercalate (target.segments.map Identifier.name) = text
  depth_eq : target.depth = (text.toList.splitOn '.').length
  depth_pos : 1 ≤ target.depth
  leaf_last : target.segments.getLast? = some target.splitLeaf.2
  lone_iff : target.splitLeaf.1 = none ↔ target.depth = 1
  last_dot : Text.cutLast '.' text.toList = target.splitLeaf.1.map fun outer =>
    (outer.text.toList, target.splitLeaf.2.name.toList)
  parents : ∀ outer, target.splitLeaf.1 = some outer →
    parse outer.text = .ok outer ∧ outer.depth + 1 = target.depth ∧
      outer.text.toList.splitOn '.' ++ [target.splitLeaf.2.name.toList] =
        target.segments.map fun segment => segment.name.toList

theorem cutFrom_text (target : TargetPath) : CutFrom target.text target where
  segments_eq := target.splitOn_text.symm
  joined := rfl
  depth_eq := by rw [splitOn_text, List.length_map, depth]
  depth_pos := by
    have hdepth := target.depth_eq_parents
    omega
  leaf_last := by rw [snd_splitLeaf, segments, List.getLast?_concat]
  lone_iff := by simp [splitLeaf_eq_none_iff, depth_eq_parents]
  last_dot := target.cutLast_text
  parents := fun outer h => ⟨outer.parse_text, depth_parents h, splitOn_parents h⟩

/-- Two texts with a dot between them are a path when both are, and its segments are those of the
one and then those of the other; and every path is cut from its text, segment by segment or into
parents and leaf. -/
theorem parse_composes :
    (∀ p q : String,
      ((∃ target, parse (p ++ "." ++ q) = .ok target) ↔
        (∃ outer, parse p = .ok outer) ∧ ∃ inner, parse q = .ok inner) ∧
      ∀ target outer inner, parse (p ++ "." ++ q) = .ok target → parse p = .ok outer →
        parse q = .ok inner →
          target.segments = outer.segments ++ inner.segments ∧
            target.depth = outer.depth + inner.depth) ∧
    ∀ text target, parse text = .ok target → CutFrom text target := by
  refine ⟨fun p q => ⟨exists_parse_dot_iff, ?_⟩, ?_⟩
  · intro target outer inner h hp hq
    have hsegments := segments_of_parse_dot h hp hq
    refine ⟨hsegments, ?_⟩
    unfold depth
    rw [hsegments, List.length_append]
  · intro text target h
    obtain rfl : target.text = text := parse_eq_ok_iff.mp h
    exact target.cutFrom_text

/-- The path `spec.template`, and `spec` below it. -/
theorem parse_composes_podTemplate :
    let spec : Identifier := ⟨"spec", by decide⟩
    let template : Identifier := ⟨"template", by decide⟩
    parse ("spec.template" ++ "." ++ "spec") = .ok ⟨[spec, template], spec⟩ ∧
      TargetPath.depth ⟨[spec, template], spec⟩ =
        TargetPath.depth ⟨[spec], template⟩ + TargetPath.depth ⟨[], spec⟩ ∧
      CutFrom "spec.template.spec" ⟨[spec, template], spec⟩ := by
  intro spec template
  have hpath : parse ("spec.template" ++ "." ++ "spec") = .ok ⟨[spec, template], spec⟩ := by decide
  have houter : parse "spec.template" = .ok ⟨[spec], template⟩ := by decide
  have hinner : parse "spec" = .ok ⟨[], spec⟩ := by decide
  have hdepth := ((parse_composes.1 "spec.template" "spec").2 _ _ _ hpath houter hinner).2
  exact ⟨hpath, hdepth, parse_composes.2 "spec.template.spec" _ hpath⟩

end TargetPath

end Setters

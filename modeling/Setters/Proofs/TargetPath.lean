import Mathlib.Data.List.Basic
import Mathlib.Data.String.Basic
import Setters.TargetPath

/-!
# Paths and their texts

No identifier has a dot in it, so the text of a path is cut at its dots into the names of its
segments, and is read as the path again: `TargetPath.parse_text`.
-/

namespace Setters

theorem Text.pieces_eq_splitOn (separator : Char) (cs : List Char) :
    pieces separator cs = cs.splitOn separator := by
  induction cs with
  | nil => simp [pieces]
  | cons c cs ih =>
    rw [pieces, ih, List.splitOn_cons_eq_if_modifyHead]
    simp only [beq_iff_eq]

namespace Identifier

theorem name_ne_nil (s : Identifier) : s.name.toList ≠ [] := by
  intro hnil
  have hvalid := s.valid
  rw [hnil] at hvalid
  cases hvalid

theorem isIdentifierRest_of_isIdentifierStart {c : Char} (h : isIdentifierStart c) :
    isIdentifierRest c := by
  rw [isIdentifierStart, Bool.or_eq_true] at h
  rw [isIdentifierRest, Char.isAlphanum, Bool.or_eq_true, Bool.or_eq_true]
  exact h.imp_left .inl

theorem dot_notMem (s : Identifier) : '.' ∉ s.name.toList := by
  intro hmem
  have hvalid := s.valid
  cases hname : s.name.toList with
  | nil => exact s.name_ne_nil hname
  | cons c cs =>
    rw [hname, isIdentifier, Bool.and_eq_true, List.all_eq_true] at hvalid
    have hdot : isIdentifierRest '.' := by
      rcases List.mem_cons.mp (hname ▸ hmem) with rfl | hrest
      · exact isIdentifierRest_of_isIdentifierStart hvalid.1
      · exact hvalid.2 '.' hrest
    exact absurd hdot (by decide)

end Identifier

namespace TargetPath

theorem toList_join (segments : List Identifier) :
    (join segments).toList =
      ['.'].intercalate (segments.map fun segment => segment.name.toList) := by
  simp only [join, String.toList_intercalate, List.map_map]
  rfl

theorem splitOn_join {segments : List Identifier} (h : segments ≠ []) :
    (join segments).toList.splitOn '.' = segments.map fun segment => segment.name.toList := by
  have hdots : ∀ piece ∈ segments.map (fun segment => segment.name.toList), '.' ∉ piece := by
    intro piece hpiece
    obtain ⟨segment, -, rfl⟩ := List.mem_map.mp hpiece
    exact segment.dot_notMem
  rw [toList_join, List.splitOn_intercalate '.' hdots (by simpa using h)]

theorem readSegments_names (path : String) (position : Nat) (segments : List Identifier) :
    readSegments path position (segments.map fun segment => segment.name.toList) =
      .ok segments := by
  induction segments generalizing position with
  | nil => rfl
  | cons s ss ih =>
    have hne : ¬s.name.toList.isEmpty := fun h => s.name_ne_nil (List.isEmpty_iff.mp h)
    rw [List.map_cons, readSegments, if_neg hne, dif_pos s.valid, ih]
    simp only [String.ofList_toList]

theorem ofSegments_append (s : Identifier) (ss : List Identifier) (leaf : Identifier) :
    ofSegments s (ss ++ [leaf]) = ⟨s :: ss, leaf⟩ := by
  induction ss generalizing s with
  | nil => rfl
  | cons t ts ih => rw [List.cons_append, ofSegments, ih]

theorem join_ne_empty (s : Identifier) (ss : List Identifier) : ¬(join (s :: ss)).isEmpty := by
  intro hempty
  have htext : join (s :: ss) = "" := String.isEmpty_iff.mp hempty
  have hsplit := splitOn_join (List.cons_ne_nil s ss)
  rw [htext] at hsplit
  exact s.name_ne_nil (List.cons.inj hsplit).1.symm

theorem parse_join (s : Identifier) (ss : List Identifier) :
    parse (join (s :: ss)) = .ok (ofSegments s ss) := by
  rw [parse, if_neg (join_ne_empty s ss), Text.pieces_eq_splitOn,
    splitOn_join (List.cons_ne_nil s ss), readSegments_names]

/-- A path is read back from its text. -/
theorem parse_text (path : TargetPath) : parse path.text = .ok path := by
  obtain ⟨parents, leaf⟩ := path
  cases parents with
  | nil => exact parse_join leaf []
  | cons s ss =>
    have hparse := parse_join s (ss ++ [leaf])
    rw [ofSegments_append] at hparse
    exact hparse

end TargetPath

end Setters

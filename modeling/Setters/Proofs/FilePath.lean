import Setters.FilePath
import Setters.Proofs.TargetPath

/-!
# Names of files

A path is what stands between its slashes, joined by slashes again. The name of its file is the
last of these pieces that is neither empty nor a single dot, unless that one goes up:
`fileName?_eq_some_iff`. A name falls into a stem that is not empty and an extension without dots
in one way at most: `splitName_append`.
-/

namespace Setters

theorem Text.notMem_of_mem_pieces {separator : Char} {cs piece : List Char}
    (h : piece ∈ pieces separator cs) : separator ∉ piece := by
  induction cs generalizing piece with
  | nil =>
    rw [pieces, List.mem_singleton] at h
    rw [h]
    exact List.not_mem_nil
  | cons c cs ih =>
    rw [pieces] at h
    by_cases hc : c = separator
    · rw [if_pos hc] at h
      rcases List.mem_cons.mp h with rfl | hrest
      · exact List.not_mem_nil
      · exact ih hrest
    · rw [if_neg hc] at h
      cases hpieces : pieces separator cs with
      | nil =>
        rw [hpieces] at h
        cases h
      | cons first rest =>
        rw [hpieces] at h ih
        rcases List.mem_cons.mp h with rfl | hrest
        · exact List.not_mem_cons_of_ne_of_not_mem (Ne.symm hc) (ih List.mem_cons_self)
        · exact ih (List.mem_cons_of_mem first hrest)

namespace FilePath

variable {path : FilePath} {name stem extension : String} {names : List String}

/-! ### Pieces -/

theorem slash_notMem {piece : String} (h : piece ∈ path.pieces) : '/' ∉ piece.toList := by
  obtain ⟨chars, hchars, rfl⟩ := List.mem_map.mp h
  rw [String.toList_ofList]
  exact Text.notMem_of_mem_pieces hchars

theorem text_eq_intercalate (path : FilePath) : path.text = "/".intercalate path.pieces := by
  have hpieces : path.pieces.map String.toList = path.text.toList.splitOn '/' := by
    rw [pieces, Text.pieces_eq_splitOn, List.map_map]
    exact List.map_id'' (fun chars => String.toList_ofList) _
  have htext : ("/".intercalate path.pieces).toList = path.text.toList := by
    rw [String.toList_intercalate, hpieces]
    exact List.intercalate_splitOn '/'
  exact String.toList_inj.mp htext.symm

theorem pieces_of_text (h : path.text = "/".intercalate names)
    (hslash : ∀ name ∈ names, '/' ∉ name.toList) (hne : names ≠ []) : path.pieces = names := by
  have hslash' : ∀ chars ∈ names.map String.toList, '/' ∉ chars := by
    intro chars hmem
    obtain ⟨name, hname, rfl⟩ := List.mem_map.mp hmem
    exact hslash name hname
  have hsplit : path.text.toList.splitOn '/' = names.map String.toList := by
    rw [h, String.toList_intercalate]
    exact List.splitOn_intercalate '/' hslash' (by simpa using hne)
  rw [pieces, Text.pieces_eq_splitOn, hsplit, List.map_map]
  exact List.map_id'' (fun name => String.ofList_toList) names

/-! ### The last name -/

/-- Whether a path ends in a name: joined by slashes, it is the last that is neither empty nor a
single dot, and it is no double dot. -/
def EndsIn (path : FilePath) (name : String) : Prop :=
  ∃ before after : List String, path.text = "/".intercalate (before ++ name :: after) ∧
    (∀ piece ∈ before ++ name :: after, '/' ∉ piece.toList) ∧
    (∀ piece ∈ after, piece = "" ∨ piece = ".") ∧ name ≠ "" ∧ name ≠ "." ∧ name ≠ ".."

theorem getLast?_names_eq_some_iff :
    path.names.getLast? = some name ↔
      (∃ before after, path.pieces = before ++ name :: after ∧
        ∀ piece ∈ after, piece = "" ∨ piece = ".") ∧ name ≠ "" ∧ name ≠ "." := by
  rw [names, List.getLast?_filter, List.find?_eq_some_iff_append]
  simp only [here, Bool.and_eq_true, bne_iff_ne, Bool.not_eq_true', Bool.and_eq_false_iff,
    bne_eq_false_iff_eq]
  -- the search runs from the back, so what it passes over comes in reverse
  constructor
  · rintro ⟨hname, after, before, hpieces, hafter⟩
    refine ⟨⟨before.reverse, after.reverse, ?_, ?_⟩, hname⟩
    · have hreversed := congrArg List.reverse hpieces
      simpa using hreversed
    · intro piece hmem
      exact hafter piece (List.mem_reverse.mp hmem)
  · rintro ⟨⟨before, after, hpieces, hafter⟩, hname⟩
    refine ⟨hname, after.reverse, before.reverse, by simp [hpieces], ?_⟩
    intro piece hmem
    exact hafter piece (List.mem_reverse.mp hmem)

/-- The name of the file is the name that the path ends in. -/
theorem fileName?_eq_some_iff : path.fileName? = some name ↔ path.EndsIn name := by
  have hlast : path.fileName? = some name ↔
      path.names.getLast? = some name ∧ name ≠ ".." := by
    rw [fileName?]
    cases path.names.getLast? with
    | none => simp
    | some last =>
      by_cases hup : last = ".."
      · simp +contextual [up, hup]
      · simp +contextual [up, hup, eq_comm]
  rw [hlast, getLast?_names_eq_some_iff]
  constructor
  · rintro ⟨⟨⟨before, after, hpieces, hafter⟩, hempty, hhere⟩, hup⟩
    refine ⟨before, after, ?_, ?_, hafter, hempty, hhere, hup⟩
    · rw [← hpieces]
      exact path.text_eq_intercalate
    · intro piece hmem
      rw [← hpieces] at hmem
      exact slash_notMem hmem
  · rintro ⟨before, after, htext, hslash, hafter, hempty, hhere, hup⟩
    have hpieces := pieces_of_text htext hslash (by simp)
    exact ⟨⟨⟨before, after, hpieces, hafter⟩, hempty, hhere⟩, hup⟩

/-! ### Stems and extensions -/

theorem ne_dot_of_mem_reverse {chars : List Char} (h : '.' ∉ chars) :
    ∀ c ∈ chars.reverse, (c != '.') = true := by
  intro c hmem
  rw [bne_iff_ne]
  rintro rfl
  exact h (List.mem_reverse.mp hmem)

theorem cutAtLastDot_of_notMem {chars : List Char} (h : '.' ∉ chars) :
    cutAtLastDot chars = none := by
  have hdrop : (chars.reverse ++ []).dropWhile (· != '.') = [] :=
    List.dropWhile_append_of_pos (ne_dot_of_mem_reverse h)
  rw [List.append_nil] at hdrop
  rw [cutAtLastDot, hdrop]

theorem cutAtLastDot_append {before after : List Char} (h : '.' ∉ after) :
    cutAtLastDot (before ++ '.' :: after) = some (before, after) := by
  have hreverse : (before ++ '.' :: after).reverse = after.reverse ++ '.' :: before.reverse := by
    simp
  rw [cutAtLastDot, hreverse, List.dropWhile_append_of_pos (ne_dot_of_mem_reverse h),
    List.takeWhile_append_of_pos (ne_dot_of_mem_reverse h)]
  simp

/-- A name with a stem and an extension is cut into these. -/
theorem splitName_append (hstem : stem ≠ "") (hdot : '.' ∉ extension.toList) :
    splitName (stem ++ "." ++ extension) = (stem, some extension) := by
  have hchars : (stem ++ "." ++ extension).toList = stem.toList ++ '.' :: extension.toList := by
    simp [String.toList_append]
  have hne : stem.toList ≠ [] := by rwa [ne_eq, String.toList_eq_nil_iff]
  rw [splitName, hchars, cutAtLastDot_append hdot]
  cases hstem' : stem.toList with
  | nil => exact absurd hstem' hne
  | cons c cs =>
    dsimp only
    rw [← hstem', String.ofList_toList, String.ofList_toList]

theorem eq_append_of_splitName (h : splitName name = (stem, some extension)) :
    stem ≠ "" ∧ name = stem ++ "." ++ extension := by
  by_cases hdot : '.' ∈ name.toList
  · obtain ⟨after, before, hreverse, hafter⟩ :=
      List.eq_append_cons_of_mem (List.mem_reverse.mpr hdot)
    have hchars : name.toList = before.reverse ++ '.' :: after.reverse := by
      have hname := congrArg List.reverse hreverse
      simpa using hname
    rw [splitName, hchars, cutAtLastDot_append (by simpa using hafter)] at h
    cases hbefore : before.reverse with
    | nil =>
      -- a dot in front is part of the stem, and the name has no extension
      rw [hbefore] at h
      cases h
    | cons c cs =>
      rw [hbefore] at h hchars
      obtain ⟨rfl, hextension⟩ := Prod.mk.inj h
      obtain rfl := Option.some.inj hextension
      refine ⟨by simp [← String.toList_inj], ?_⟩
      rw [← String.toList_inj, hchars]
      simp [String.toList_append]
  · rw [splitName, cutAtLastDot_of_notMem hdot] at h
    cases h

end FilePath

end Setters

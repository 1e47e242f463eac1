import Setters.CommandLine.Session
import Setters.Proofs.Expr.RoundTrip
import Setters.Proofs.Json.Layout

/-!
# The two texts of a tree

The pretty text of a tree is its compact text with spaces and newlines between the tokens. The
compact text is a single line whatever the names, parameters and help texts hold, for controls in
them are escaped.
-/

namespace Setters

open Json

/-- Whether a laid out text and a bare one are the same document: the bare one is what is left
without the layout, shows nothing but visible characters outside its literals, and has no control
anywhere; the only control in the other one is the newline. -/
structure OneDocument (laidOut bare : String) : Prop where
  same : withoutLayout laidOut = bare
  visible : ∀ c ∈ outerChars bare.toList, IsVisible c
  oneLine : ∀ c ∈ bare.toList, ¬c.toNat < 0x20
  newlines : ∀ c, c ∈ laidOut.toList ∧ c.toNat < 0x20 ↔ c = '\n'

theorem oneDocument_of_laidOut {text bare : List Char} (h : LaidOut text bare)
    (hline : '\n' ∈ text) : OneDocument (String.ofList text) (String.ofList bare) where
  same := by rw [withoutLayout, String.toList_ofList, h.bareChars_eq]
  visible := by
    rw [String.toList_ofList]
    exact h.visible_outerChars
  oneLine := by
    rw [String.toList_ofList]
    exact h.not_control_bare
  newlines := by
    intro c
    rw [String.toList_ofList]
    constructor
    · rintro ⟨hmem, hcontrol⟩
      exact h.newline_of_control c hmem hcontrol
    · rintro rfl
      exact ⟨hline, by decide⟩

/-- The two texts of a tree, any names and texts in it, are the same document. -/
theorem render_oneDocument (tree : Expr) :
    OneDocument (Layout.pretty.render tree) (Layout.compact.render tree) := by
  have hlaid := laidOut_pretty 0 tree.toJson (Expr.numberFree_toJson tree)
  have hline : '\n' ∈ prettyChars 0 tree.toJson := by
    rw [Expr.toJson_eq_tagged]
    exact newline_mem_pretty 0 _ _
  exact oneDocument_of_laidOut hlaid hline

end Setters

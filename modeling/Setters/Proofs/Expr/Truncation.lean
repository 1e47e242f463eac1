import Setters.Proofs.Expr.Decoding
import Setters.Proofs.Json.Truncation

/-!
# Nodes that end too early

`Expr.readJson_cuts`: the text of a node without numbers that is cut off anywhere is refused
because it ends too early. What is wrong with the parts of a node is seen only once the node is
read as a whole.
-/

namespace Setters

open Json

theorem ExprKind.readJson_cuts :
    Cuts (fun value => (ExprKind.decode value).isSome) ExprKind.readJson := by
  refine ((readString_cuts .variant).mono fun value haccept => ?_).check fun cs halt hhalt => ?_
  · obtain ⟨kind, hkind⟩ := Option.isSome_iff_exists.mp haccept
    obtain ⟨word, hword, -⟩ := Option.bind_eq_some_iff.mp hkind
    exact Option.isSome_iff_exists.mpr ⟨word, hword⟩
  · simp only [readJson, hhalt]

namespace Expr

theorem readMember_cuts (room : Nat) (state : Option ExprKind × List (String × Json))
    (name : String) :
    CutsMember (fun value => value.NumberFree ∧ (takeMember room state name value).isSome)
      (readMember room state name) := by
  have hkind := readColon_cuts (ExprKind.readJson_cuts.map fun kind => (some kind, state.2))
  have hvalue := readColon_cuts
    ((readValue_cuts room).gather fun v => (state.1, (name, v) :: state.2))
  unfold readMember takeMember
  by_cases hname : name == ExprKind.key
  · simp only [if_pos hname]
    cases hstate : state.1 with
    | some kind =>
      intro value between after text p _ _ _ haccept
      cases haccept.2
    | none => exact hkind.mono fun value haccept => by simpa using haccept.2
  · simp only [if_neg hname]
    exact hvalue

theorem readItem_cuts (room : Nat) (state : Option ExprKind × List Json) :
    Cuts (fun value => value.NumberFree ∧ (takeItem room state value).isSome)
      (readItem room state) := by
  obtain ⟨kind, items⟩ := state
  cases kind with
  | none =>
    have hkind := ExprKind.readJson_cuts.map fun kind => (some kind, items)
    exact hkind.mono fun value haccept => by simpa [takeItem] using haccept.2
  | some kind => exact (readValue_cuts room).gather fun v => (some kind, v :: items)

/-- The text of a node without numbers that is cut off anywhere ends too early. -/
theorem readJson_cuts (room : Nat) :
    Cuts (fun value => value.NumberFree ∧ (decode room value).isSome) (readJson room) := by
  intro value lead text p hlead hspells haccept hp
  obtain ⟨hfree, hdecode⟩ := haccept
  obtain ⟨node, hnode⟩ := Option.isSome_iff_exists.mp hdecode
  obtain ⟨c, more, rfl, hc⟩ := hspells.begins
  unfold readJson
  rcases hp.lead hlead hc.not_blank with hskip | ⟨p', hskip, hp'⟩
  · rw [hskip]
    exact mismatch_nil .expr
  · rw [hskip]
    cases room with
    | zero => cases value <;> cases hnode
    | succ room =>
      cases value with
      | object members =>
        obtain ⟨inner, htext, hmembers⟩ := hspells
        obtain ⟨rfl, rfl⟩ := List.cons.inj htext
        obtain ⟨state, hstate, -⟩ := Option.bind_eq_some_iff.mp hnode
        have hfold := Option.isSome_iff_exists.mpr ⟨state, hstate⟩
        have hread := readObject_cut (readMember_closed room) (readMember_cuts room)
          hmembers hfree.members hfold hp'
        exact (hread.settle closeObject).step fun halt hhalt => by simp only [hhalt]
      | array items =>
        obtain ⟨inner, htext, hitems⟩ := hspells
        obtain ⟨rfl, rfl⟩ := List.cons.inj htext
        obtain ⟨state, hstate, -⟩ := Option.bind_eq_some_iff.mp hnode
        have hfold := Option.isSome_iff_exists.mpr ⟨state, hstate⟩
        have hread := readArray_cut (readItem_closed room) (readItem_cuts room)
          hitems hfree.items hfold hp'
        exact hread.step fun halt hhalt => by simp only [hhalt]
      | null | boolean | number | string => cases hnode

end Expr

end Setters

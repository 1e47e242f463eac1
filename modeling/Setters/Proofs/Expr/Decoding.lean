import Setters.Expr.JsonReader
import Setters.Proofs.Json.Limits
import Setters.Proofs.Json.Plain

/-!
# Decoding written nodes

What the reader of nodes makes of a value, without its text. Beside the kind it reads plain values
only, so a node is decoded from its members or items as soon as those are known:
`Expr.readJson_decodes`. With less levels the reader does the same up to the limit:
`Expr.readJson_curbs`.
-/

namespace Setters

open Json

/-! ### Kinds -/

def ExprKind.decode (value : Written) : Option ExprKind :=
  value.text?.bind fun word => (ofWord word).toOption

theorem ExprKind.readJson_decodes : Decodes ExprKind.readJson ExprKind.decode := by
  refine (readString_decodes .variant).check ofWord ?_ ?_
  · intro cs text rest h
    simp only [readJson, h, toOption_settle]
  · intro cs halt h
    simp only [readJson, h]

namespace Expr

variable {room room' : Nat}

/-! ### Members and items -/

def takeMember (room : Nat) (state : Option ExprKind × List (String × Json)) (name : String)
    (value : Written) : Option (Option ExprKind × List (String × Json)) :=
  if name == ExprKind.key then
    if state.1.isSome then none
    else (ExprKind.decode value).map fun kind => (some kind, state.2)
  else (value.within room).map fun v => (state.1, (name, v) :: state.2)

theorem readMember_closed (room : Nat) :
    DecodesMemberClosed (readMember room) (takeMember room) := by
  intro state name value between after text rest hbetween hafter hspells hrest
  unfold readMember takeMember
  dsimp only
  split
  · split
    · rfl
    · have hkind := ExprKind.readJson_decodes.map fun kind => (some kind, state.2)
      rw [readColon_lead hbetween]
      exact hkind value after text rest hafter hspells
  · have hvalue := (readValue_decodes room).map fun v => (state.1, (name, v) :: state.2)
    rw [readColon_lead hbetween]
    exact hvalue value after text rest hafter hspells hrest

def takeItem (room : Nat) (state : Option ExprKind × List Json) (value : Written) :
    Option (Option ExprKind × List Json) :=
  match state.1 with
  | none => (ExprKind.decode value).map fun kind => (some kind, state.2)
  | some kind => (value.within room).map fun v => (some kind, v :: state.2)

theorem readItem_closed (room : Nat) (state : Option ExprKind × List Json) :
    DecodesClosed (readItem room state) (takeItem room state) := by
  obtain ⟨kind, items⟩ := state
  cases kind with
  | none => exact (ExprKind.readJson_decodes.map fun kind => (some kind, items)).closed
  | some kind => exact (readValue_decodes room).map fun v => (some kind, v :: items)

/-! ### Nodes -/

theorem toOption_finish (kind : Option ExprKind) (rest : List Char)
    (node : Except ContentFault Expr) :
    (finish kind rest node).toOption = (ofContent rest node).toOption := by
  rw [finish]
  split
  · rfl
  · exact toOption_settle id _

def decode : Nat → Written → Option Expr
  | room + 1, .object members =>
    (members.foldlM (decodeMember (takeMember room)) (none, [])).bind fun (kind, vs) =>
      (ofMembers kind vs.reverse).toOption
  | room + 1, .array items =>
    (items.foldlM (takeItem room) (none, [])).bind fun (kind, vs) =>
      (ofItems kind vs.reverse).toOption
  | _, _ => none

theorem readJson_decodes (room : Nat) : Decodes (readJson room) (decode room) := by
  intro value lead text rest hlead hspells
  obtain ⟨c, more, rfl, hc⟩ := hspells.begins
  rw [readJson, List.cons_append, skipBlanks_value hlead hc]
  split
  · rename_i heq
    obtain ⟨rfl, rfl⟩ := List.cons.inj heq
    obtain ⟨members, rfl⟩ := hc.object_of
    obtain ⟨inner, htext, hinner⟩ := hspells
    obtain rfl := (List.cons.inj htext).2
    cases room with
    | zero => rfl
    | succ room =>
      have hread := readObject_closed (readMember_closed room) hinner (none, []) rest
      rw [← toOption_settle closeObject] at hread
      rw [List.append_assoc, List.singleton_append, decode]
      dsimp only
      refine toOption_check hread (fun state => ofMembers state.1 state.2.reverse) ?_ ?_
      · rintro ⟨kind, vs⟩ hok
        rw [hok]
        exact toOption_finish kind rest _
      · intro halt hhalt
        rw [hhalt]
  · rename_i heq
    obtain ⟨rfl, rfl⟩ := List.cons.inj heq
    obtain ⟨items, rfl⟩ := hc.array_of
    obtain ⟨inner, htext, hinner⟩ := hspells
    obtain rfl := (List.cons.inj htext).2
    cases room with
    | zero => rfl
    | succ room =>
      have hread := readArray_closed (readItem_closed room) hinner (none, []) rest
      rw [List.append_assoc, List.singleton_append, decode]
      dsimp only
      refine toOption_check hread (fun state => ofItems state.1 state.2.reverse) ?_ ?_
      · rintro ⟨kind, vs⟩ hok
        rw [hok]
        exact toOption_finish kind rest _
      · intro halt hhalt
        rw [hhalt]
  · rename_i hobject harray
    have hnone : decode room value = none := by
      cases room <;> cases value <;> try rfl
      · obtain rfl : c = '[' := hc
        exact absurd rfl (harray _)
      · obtain rfl : c = '\x7b' := hc
        exact absurd rfl (hobject _)
    rw [mismatch_toOption, hnone, Option.map_none]

/-! ### The limit on nesting -/

theorem readMember_curbs (h : room ≤ room') (state : Option ExprKind × List (String × Json))
    (name : String) : Curbs (readMember room state name) (readMember room' state name) := by
  by_cases hname : name == ExprKind.key
  · intro cs
    rw [readMember, readMember, if_pos hname, if_pos hname]
    exact .refl _
  · intro cs
    rw [readMember, readMember, if_neg hname, if_neg hname]
    exact readColon_curbs ((readValue_curbs h).map fun v => (state.1, (name, v) :: state.2)) cs

theorem readItem_curbs (h : room ≤ room') (state : Option ExprKind × List Json) :
    Curbs (readItem room state) (readItem room' state) := by
  obtain ⟨kind, items⟩ := state
  cases kind with
  | none => exact .refl _
  | some kind => exact (readValue_curbs h).map fun v => (some kind, v :: items)

/-- Nodes are read with less levels as with more, up to the limit. -/
theorem readJson_curbs (room room' : Nat) (h : room ≤ room') :
    Curbs (readJson room) (readJson room') := by
  intro cs
  unfold readJson
  split
  · rename_i rest _
    cases room with
    | zero => exact .inr ⟨_, rfl⟩
    | succ room =>
      obtain ⟨room', rfl⟩ := Nat.exists_eq_succ_of_ne_zero (Nat.ne_zero_of_lt h)
      have hmember := readMember_curbs (Nat.le_of_succ_le_succ h)
      have hread := (readObject_curbs hmember (none, []) rest).settle closeObject
      dsimp only
      rcases hread with heq | ⟨left, hdeep⟩
      · rw [heq]
        exact .refl _
      · rw [hdeep]
        exact .inr ⟨left, rfl⟩
  · rename_i rest _
    cases room with
    | zero => exact .inr ⟨_, rfl⟩
    | succ room =>
      obtain ⟨room', rfl⟩ := Nat.exists_eq_succ_of_ne_zero (Nat.ne_zero_of_lt h)
      have hitem := readItem_curbs (Nat.le_of_succ_le_succ h)
      dsimp only
      rcases readArray_curbs hitem (none, []) rest with heq | ⟨left, hdeep⟩
      · rw [heq]
        exact .refl _
      · rw [hdeep]
        exact .inr ⟨left, rfl⟩
  · exact .refl _

end Expr

end Setters

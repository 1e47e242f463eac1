import Mathlib.Data.List.Perm.Basic
import Setters.Proofs.Expr.Decoding
import Setters.Proofs.Schema.Fields

/-!
# Nodes from their members

A node is written as its kind and its parts, and read from the members under these keys, wherever
they stand and whatever stands between them. `Json.ExtendedBy` says which values come from another
one by moving members and putting in members of other keys, at every level, and
`Expr.ofJson_of_extendedBy` that they stand for the same node.

The reader of texts gathers plain values and then does what `Expr.ofJson` does with a value, so
`Expr.decode_of_extendedBy` says the same of written nodes, as deep as there are levels.
-/

namespace Setters

namespace Json

mutual

/-- Whether the second value is the first one with the members of its objects in any order and
members of other keys among them. -/
def ExtendedBy : Json → Json → Prop
  | .array items, w => ∃ items', w = .array items' ∧ ExtendedByItems items items'
  | .object members, w => ∃ members' own beside, w = .object members' ∧
      ExtendedByMembers members own ∧ members'.Perm (own ++ beside) ∧
      ∀ member ∈ beside, member.1 ∉ members.map Prod.fst
  | v, w => w = v

def ExtendedByItems : List Json → List Json → Prop
  | [], items' => items' = []
  | item :: items, items' =>
    ∃ w rest, items' = w :: rest ∧ ExtendedBy item w ∧ ExtendedByItems items rest

def ExtendedByMembers : List (String × Json) → List (String × Json) → Prop
  | [], members' => members' = []
  | (key, value) :: members, members' =>
    ∃ w rest, members' = (key, w) :: rest ∧ ExtendedBy value w ∧ ExtendedByMembers members rest

end

mutual

theorem ExtendedBy.refl : (v : Json) → v.ExtendedBy v
  | .null => rfl
  | .boolean _ => rfl
  | .number _ => rfl
  | .string _ => rfl
  | .array items => ⟨items, rfl, ExtendedByItems.refl items⟩
  | .object members => by
    refine ⟨members, members, [], rfl, ExtendedByMembers.refl members, ?_, ?_⟩
    · rw [List.append_nil]
    · intro member hmember
      cases hmember

theorem ExtendedByItems.refl : (items : List Json) → ExtendedByItems items items
  | [] => rfl
  | item :: items => ⟨item, items, rfl, ExtendedBy.refl item, ExtendedByItems.refl items⟩

theorem ExtendedByMembers.refl :
    (members : List (String × Json)) → ExtendedByMembers members members
  | [] => rfl
  | (_, value) :: members =>
    ⟨value, members, rfl, ExtendedBy.refl value, ExtendedByMembers.refl members⟩

end

end Json

open Json

namespace Expr

/-! ### Kinds and parts -/

def kind : Expr → ExprKind
  | .object .. => .object
  | .concise .. => .concise
  | .func .. => .func
  | .ref .. => .ref
  | .merge _ => .merge
  | .args _ => .args
  | .required _ => .required
  | .string .. => .string
  | .comment .. => .comment

/-- The parts of a node as they are written. -/
def parts : Expr → List (String × Json)
  | .object name children => [("name", .string name), ("children", .array (toJsonAll children))]
  | .concise name child => [("name", .string name), ("child", toJson child)]
  | .func name params body =>
    [("name", .string name), ("params", toJson params), ("body", toJson body)]
  | .ref key target => [("key", .string key), ("target", .string target)]
  | .merge inner => [("inner", toJson inner)]
  | .args params => [("params", .array (toJsonAll params))]
  | .required param => [("param", toJson param)]
  | .string name default => [("name", .string name), ("default", .string default)]
  | .comment node text => [("node", toJson node), ("text", .string text)]

theorem toJson_eq_tagged (node : Expr) : node.toJson = tagged node.kind node.parts := by
  cases node <;> simp only [toJson, kind, parts]

theorem keys_parts (node : Expr) : node.parts.map Prod.fst = node.kind.slots.map Prod.fst := by
  cases node <;> rfl

theorem key_notMem_slots (kind : ExprKind) : ExprKind.key ∉ kind.slots.map Prod.fst := by
  cases kind <;> decide

theorem ExprKind.ofWord_tag (kind : ExprKind) : ExprKind.ofWord kind.tag = .ok kind := by
  cases kind <;> rfl

end Expr

/-! ### The kind among the members -/

namespace ExprKind

variable {kind : ExprKind} {others members : List (String × Json)}

theorem among_some (kind : ExprKind) (h : key ∉ members.map Prod.fst) :
    among (some kind) members = .ok kind := by
  induction members with
  | nil => rfl
  | cons member members ih =>
    obtain ⟨name, value⟩ := member
    rw [List.map_cons, List.mem_cons, not_or] at h
    have hname : ¬(name == key) := fun heq => h.1 (beq_iff_eq.mp heq).symm
    rw [among, if_neg hname, ih h.2]

/-- A kind is found where it stands. -/
theorem among_of_perm (h : members.Perm ((key, .string kind.tag) :: others))
    (hothers : key ∉ others.map Prod.fst) : among none members = .ok kind := by
  have hmem : (key, Json.string kind.tag) ∈ members := h.mem_iff.mpr List.mem_cons_self
  obtain ⟨before, after, rfl⟩ := List.append_of_mem hmem
  have hrest : (before ++ after).Perm others :=
    (List.perm_cons _).mp (List.perm_middle.symm.trans h)
  have hkeys : key ∉ before.map Prod.fst ∧ key ∉ after.map Prod.fst := by
    rw [← (hrest.map Prod.fst).mem_iff, List.map_append, List.mem_append, not_or] at hothers
    exact hothers
  clear h hmem hrest
  -- on what stands before the kind: it is passed over, and no other member has the key
  induction before with
  | nil =>
    rw [List.nil_append, among, if_pos (beq_self_eq_true key)]
    simp only [ExprKind.ofJson, Expr.ExprKind.ofWord_tag]
    exact among_some kind hkeys.2
  | cons member before ih =>
    obtain ⟨name, value⟩ := member
    obtain ⟨hbefore, hafter⟩ := hkeys
    rw [List.map_cons, List.mem_cons, not_or] at hbefore
    have hname : ¬(name == key) := fun heq => hbefore.1 (beq_iff_eq.mp heq).symm
    rw [List.cons_append, among, if_neg hname]
    exact ih ⟨hbefore.2, hafter⟩

end ExprKind

namespace Expr

/-! ### Parts found by their keys -/

section Parts

variable {slots : List (String × Slot)} {met given : List (String × Part)} {key : String}
  {rest own members : List (String × Json)}

def nodesOf (value : Json) : Except ContentFault (List Expr) :=
  match value with
  | .array items => ofJsonAll items
  | other => .error (.wrongType (Json.found other) .sequence)

theorem readParts_cons (value : Json) :
    readParts slots met ((key, value) :: rest) =
      match slots.lookup key with
      | none => readParts slots met rest
      | some slot =>
        if (met.lookup key).isSome then .error (.repeatedKey key)
        else
          match slot.read value (fun _ => ofJson value) (fun _ => nodesOf value) with
          | .error fault => .error fault
          | .ok part => readParts slots ((key, part) :: met) rest := by
  cases value <;> rfl

theorem readParts_of_read {slot : Slot} (hslot : slots.lookup key = some slot)
    (hmet : met.lookup key = none) {value : Json} {part : Part}
    (hread : slot.read value (fun _ => ofJson value) (fun _ => nodesOf value) = .ok part) :
    readParts slots met ((key, value) :: rest) = readParts slots ((key, part) :: met) rest := by
  simp only [readParts_cons, hslot, hmet, hread]
  rfl

theorem readParts_beside (hslot : slots.lookup key = none) (value : Json) :
    readParts slots met ((key, value) :: rest) = readParts slots met rest := by
  simp only [readParts_cons, hslot]

def isPart (slots : List (String × Slot)) (member : String × Json) : Bool :=
  (slots.lookup member.1).isSome

theorem readParts_filter (slots : List (String × Slot)) (met : List (String × Part))
    (members : List (String × Json)) :
    readParts slots met (members.filter (isPart slots)) = readParts slots met members := by
  induction members generalizing met with
  | nil => rfl
  | cons member members ih =>
    obtain ⟨key, value⟩ := member
    cases hslot : slots.lookup key with
    | none =>
      have hnot : ¬isPart slots (key, value) := by simp [isPart, hslot]
      rw [List.filter_cons_of_neg hnot, readParts_beside hslot, ih]
    | some slot =>
      have hpart : isPart slots (key, value) := by simp [isPart, hslot]
      rw [List.filter_cons_of_pos hpart, readParts_cons, readParts_cons, hslot]
      simp only [ih]

/-- Whether a member is read as a part under the same key. -/
def ReadsPart (slots : List (String × Slot)) (member : String × Json)
    (part : String × Part) : Prop :=
  member.1 = part.1 ∧ ∃ slot, slots.lookup member.1 = some slot ∧
    slot.read member.2 (fun _ => ofJson member.2) (fun _ => nodesOf member.2) = .ok part.2

theorem filter_isPart (h : List.Forall₂ (ReadsPart slots) own given) :
    own.filter (isPart slots) = own := by
  induction h with
  | nil => rfl
  | @cons member part own given hpart _ ih =>
    obtain ⟨-, slot, hslot, -⟩ := hpart
    have hmember : isPart slots member := by simp [isPart, hslot]
    rw [List.filter_cons_of_pos hmember, ih]

theorem readParts_of_forall (h : List.Forall₂ (ReadsPart slots) own given)
    (hdistinct : (given.map Prod.fst).Nodup)
    (hmet : ∀ part ∈ given, met.lookup part.1 = none) :
    readParts slots met own = .ok (given.reverse ++ met) := by
  induction h generalizing met with
  | nil => rfl
  | @cons member part own given hpart _ ih =>
    obtain ⟨key, value⟩ := member
    obtain ⟨_, content⟩ := part
    obtain ⟨rfl, slot, hslot, hread⟩ := hpart
    obtain ⟨hfresh, hdistinct'⟩ := List.nodup_cons.mp hdistinct
    have hlater : ∀ part ∈ given, ((key, content) :: met).lookup part.1 = none := by
      intro part hpart
      have hne : part.1 ≠ key := by
        intro heq
        exact hfresh (List.mem_map.mpr ⟨part, hpart, heq⟩)
      rw [Field.lookup_tail hne]
      exact hmet part (List.mem_cons_of_mem _ hpart)
    rw [readParts_of_read hslot (hmet _ List.mem_cons_self) hread, ih hdistinct' hlater]
    simp

end Parts

/-- The parts of a node under their keys. -/
def contents : Expr → List (String × Part)
  | .object name children => [("name", .text name), ("children", .nodes children)]
  | .concise name child => [("name", .text name), ("child", .node child)]
  | .func name params body => [("name", .text name), ("params", .node params), ("body", .node body)]
  | .ref key target => [("key", .text key), ("target", .text target)]
  | .merge inner => [("inner", .node inner)]
  | .args params => [("params", .nodes params)]
  | .required param => [("param", .node param)]
  | .string name default => [("name", .text name), ("default", .text default)]
  | .comment node text => [("node", .node node), ("text", .text text)]

theorem assemble_contents (node : Expr) : assemble node.kind node.contents = .ok node := by
  cases node <;> rfl

theorem keys_contents (node : Expr) :
    node.contents.map Prod.fst = node.kind.slots.map Prod.fst := by
  cases node <;> rfl

theorem distinct_slots (kind : ExprKind) : (kind.slots.map Prod.fst).Nodup := by
  cases kind <;> decide

theorem assemble_eq_of_perm (kind : ExprKind) {parts parts' : List (String × Part)}
    (h : parts.Perm parts') (distinct : (parts.map Prod.fst).Nodup) :
    assemble kind parts = assemble kind parts' := by
  have hlookup : ∀ name, parts.lookup name = parts'.lookup name :=
    Field.lookup_eq_of_perm h distinct
  simp only [assemble, hlookup]

variable {node : Expr} {own beside members : List (String × Json)}

theorem exists_parts_of_perm (hperm : members.Perm (own ++ beside))
    (hown : List.Forall₂ (ReadsPart node.kind.slots) own node.contents)
    (hbeside : ∀ member ∈ beside, node.kind.slots.lookup member.1 = none) :
    ∃ parts, readParts node.kind.slots [] members = .ok parts ∧
      assemble node.kind parts = .ok node := by
  have hkept := filter_isPart hown
  have hdropped : beside.filter (isPart node.kind.slots) = [] := by
    rw [List.filter_eq_nil_iff]
    intro member hmember
    simp [isPart, hbeside member hmember]
  have hparts : (members.filter (isPart node.kind.slots)).Perm own := by
    have hfilter := hperm.filter (isPart node.kind.slots)
    rwa [List.filter_append, hkept, hdropped, List.append_nil] at hfilter
  obtain ⟨given, hgiven, hsame⟩ := List.perm_comp_forall₂ hparts hown
  have hdistinct : (node.contents.map Prod.fst).Nodup := by
    rw [keys_contents]
    exact distinct_slots node.kind
  have hdistinct' : (given.map Prod.fst).Nodup := (hsame.map Prod.fst).nodup_iff.mpr hdistinct
  have hread : readParts node.kind.slots [] (members.filter (isPart node.kind.slots)) =
      .ok (given.reverse ++ []) := readParts_of_forall hgiven hdistinct' fun _ _ => rfl
  rw [readParts_filter, List.append_nil] at hread
  refine ⟨given.reverse, hread, ?_⟩
  have hreverse : node.contents.Perm given.reverse :=
    hsame.symm.trans (List.reverse_perm given).symm
  rw [← assemble_eq_of_perm node.kind hreverse hdistinct, assemble_contents]

theorem keys_of_reads {slots : List (String × Slot)} {given : List (String × Part)}
    (h : List.Forall₂ (ReadsPart slots) own given) : own.map Prod.fst = given.map Prod.fst := by
  induction h with
  | nil => rfl
  | cons hpart _ ih => rw [List.map_cons, List.map_cons, hpart.1, ih]

/-- A node is read from its members alone, in any order. -/
theorem ofJson_of_perm
    (hperm : members.Perm ((ExprKind.key, .string node.kind.tag) :: own ++ beside))
    (hown : List.Forall₂ (ReadsPart node.kind.slots) own node.contents)
    (hkey : ∀ member ∈ beside, member.1 ≠ ExprKind.key)
    (hbeside : ∀ member ∈ beside, member.1 ∉ node.kind.slots.map Prod.fst) :
    ofJson (.object members) = .ok node := by
  have hothers : ExprKind.key ∉ (own ++ beside).map Prod.fst := by
    rw [List.map_append, keys_of_reads hown, keys_contents, List.mem_append, not_or]
    refine ⟨key_notMem_slots node.kind, fun hmem => ?_⟩
    obtain ⟨member, hmember, heq⟩ := List.mem_map.mp hmem
    exact hkey member hmember heq
  have hkind : ExprKind.among none members = .ok node.kind := ExprKind.among_of_perm hperm hothers
  have hparts : ∀ member ∈ (ExprKind.key, .string node.kind.tag) :: beside,
      node.kind.slots.lookup member.1 = none := by
    intro member hmember
    rcases List.mem_cons.mp hmember with rfl | hmember
    · exact Field.lookup_eq_none_of_notMem (key_notMem_slots node.kind)
    · exact Field.lookup_eq_none_of_notMem (hbeside member hmember)
  obtain ⟨parts, hread, hassemble⟩ :=
    exists_parts_of_perm (hperm.trans List.perm_middle.symm) hown hparts
  rw [ofJson, hkind]
  simp only [hread, hassemble]

theorem reads_text {slots : List (String × Slot)} {key : String}
    (hslot : slots.lookup key = some .text) (text : String) :
    ReadsPart slots (key, .string text) (key, .text text) :=
  ⟨rfl, .text, hslot, rfl⟩

theorem reads_node {slots : List (String × Slot)} {key : String}
    (hslot : slots.lookup key = some .node) {w : Json} {node : Expr} (h : ofJson w = .ok node) :
    ReadsPart slots (key, w) (key, .node node) := by
  refine ⟨rfl, .node, hslot, ?_⟩
  rw [Slot.read, h]
  rfl

theorem reads_nodes {slots : List (String × Slot)} {key : String}
    (hslot : slots.lookup key = some .nodes) {items : List Json} {nodes : List Expr}
    (h : ofJsonAll items = .ok nodes) :
    ReadsPart slots (key, .array items) (key, .nodes nodes) := by
  refine ⟨rfl, .nodes, hslot, ?_⟩
  rw [Slot.read, nodesOf, h]
  rfl

theorem exists_of_extendedBy {w : Json} (h : node.toJson.ExtendedBy w) :
    ∃ members own beside, w = .object members ∧ ExtendedByMembers node.parts own ∧
      members.Perm ((ExprKind.key, .string node.kind.tag) :: own ++ beside) ∧
      (∀ member ∈ beside, member.1 ≠ ExprKind.key) ∧
      ∀ member ∈ beside, member.1 ∉ node.kind.slots.map Prod.fst := by
  rw [toJson_eq_tagged] at h
  obtain ⟨members, _, beside, rfl, ⟨_, own, rfl, rfl, hown⟩, hperm, hbeside⟩ := h
  rw [List.map_cons, keys_parts] at hbeside
  refine ⟨members, own, beside, rfl, hown, hperm, ?_, ?_⟩
  · intro member hmember heq
    exact hbeside member hmember (heq ▸ List.mem_cons_self)
  · intro member hmember hmem
    exact hbeside member hmember (List.mem_cons_of_mem _ hmem)

theorem ofJson_of_reads {w : Json} (h : node.toJson.ExtendedBy w)
    (hreads : ∀ own, ExtendedByMembers node.parts own →
      List.Forall₂ (ReadsPart node.kind.slots) own node.contents) : ofJson w = .ok node := by
  obtain ⟨members, own, beside, rfl, hown, hperm, hkey, hbeside⟩ := exists_of_extendedBy h
  exact ofJson_of_perm hperm (hreads own hown) hkey hbeside

mutual

theorem reads_contents : (node : Expr) → ∀ own, ExtendedByMembers node.parts own →
    List.Forall₂ (ReadsPart node.kind.slots) own node.contents
  | .object name children => by
    rintro _ ⟨_, _, rfl, rfl, _, _, rfl, ⟨items, rfl, hitems⟩, rfl⟩
    have hchildren := ofJsonAll_of_extendedBy children items hitems
    exact .cons (reads_text rfl name) (.cons (reads_nodes rfl hchildren) .nil)
  | .concise name child => by
    rintro _ ⟨_, _, rfl, rfl, _, _, rfl, hw, rfl⟩
    have hchild := ofJson_of_reads hw (reads_contents child)
    exact .cons (reads_text rfl name) (.cons (reads_node rfl hchild) .nil)
  | .func name params body => by
    rintro _ ⟨_, _, rfl, rfl, _, _, rfl, hw, _, _, rfl, hw', rfl⟩
    have hparams := ofJson_of_reads hw (reads_contents params)
    have hbody := ofJson_of_reads hw' (reads_contents body)
    exact .cons (reads_text rfl name)
      (.cons (reads_node rfl hparams) (.cons (reads_node rfl hbody) .nil))
  | .ref key target => by
    rintro _ ⟨_, _, rfl, rfl, _, _, rfl, rfl, rfl⟩
    exact .cons (reads_text rfl key) (.cons (reads_text rfl target) .nil)
  | .merge inner => by
    rintro _ ⟨_, _, rfl, hw, rfl⟩
    have hinner := ofJson_of_reads hw (reads_contents inner)
    exact .cons (reads_node rfl hinner) .nil
  | .args params => by
    rintro _ ⟨_, _, rfl, ⟨items, rfl, hitems⟩, rfl⟩
    have hparams := ofJsonAll_of_extendedBy params items hitems
    exact .cons (reads_nodes rfl hparams) .nil
  | .required param => by
    rintro _ ⟨_, _, rfl, hw, rfl⟩
    have hparam := ofJson_of_reads hw (reads_contents param)
    exact .cons (reads_node rfl hparam) .nil
  | .string name default => by
    rintro _ ⟨_, _, rfl, rfl, _, _, rfl, rfl, rfl⟩
    exact .cons (reads_text rfl name) (.cons (reads_text rfl default) .nil)
  | .comment node text => by
    rintro _ ⟨_, _, rfl, hw, _, _, rfl, rfl, rfl⟩
    have hnode := ofJson_of_reads hw (reads_contents node)
    exact .cons (reads_node rfl hnode) (.cons (reads_text rfl text) .nil)

theorem ofJsonAll_of_extendedBy : (nodes : List Expr) → ∀ items,
    ExtendedByItems (toJsonAll nodes) items → ofJsonAll items = .ok nodes
  | [] => by
    rintro _ rfl
    rfl
  | node :: nodes => by
    rintro _ ⟨w, items, rfl, hw, hitems⟩
    rw [ofJsonAll, ofJson_of_reads hw (reads_contents node),
      ofJsonAll_of_extendedBy nodes items hitems]
    rfl

end

theorem ofJson_of_extendedBy {w : Json} (h : node.toJson.ExtendedBy w) : ofJson w = .ok node :=
  ofJson_of_reads h (reads_contents node)

/-! ### From values to texts -/

/-- Whether a member is anything but the kind. -/
def besideKind (member : String × Json) : Bool :=
  member.1 != ExprKind.key

/-- Whether the kind is a string wherever it stands. -/
def WordKinds (members : List (String × Json)) : Prop :=
  ∀ member ∈ members, member.1 = ExprKind.key → ∃ word, member.2 = .string word

/-- The members of a text are gathered as `ExprKind.among` finds the kind among their values. -/
theorem foldlM_takeMember (room : Nat) {document : List (List Piece × Written)}
    (hvs : Written.members? document = some members) (hwords : WordKinds members)
    (found : Option ExprKind) (start : List (String × Json)) :
    ((document.foldlM (decodeMember (takeMember room)) (found, start)).bind fun (kind, vs) =>
        kind.map (·, vs)) =
      if Written.depthMembers document ≤ room then
        (ExprKind.among found members).toOption.map
          (·, (members.filter besideKind).reverse ++ start)
      else none := by
  induction document generalizing members found start with
  | nil =>
    obtain rfl := Option.some.inj hvs
    cases found <;> rfl
  | cons member document ih =>
    obtain ⟨key, value⟩ := member
    obtain ⟨word, v, rest, hkey, hv, hrest, rfl⟩ := Written.members?_cons_eq_some_iff.mp hvs
    obtain ⟨hword, hlater⟩ := List.forall_mem_cons.mp hwords
    rw [List.foldlM_cons, decodeMember, hkey, Option.bind_some, takeMember, ExprKind.among,
      Written.depthMembers]
    by_cases hname : word == ExprKind.key
    -- a string has no depth, so the kind costs no level
    · obtain ⟨text, rfl⟩ := hword (beq_iff_eq.mp hname)
      obtain ⟨pieces, rfl, htext⟩ := Written.value?_eq_string_iff.mp hv
      have hbeside : ¬besideKind (word, .string text) := by simpa [besideKind] using hname
      have hflat : (Written.string pieces).depth = 0 := rfl
      rw [if_pos hname, if_pos hname, List.filter_cons_of_neg hbeside, hflat, Nat.zero_max]
      cases found with
      | some kind => exact (ite_self none).symm
      | none =>
        rw [ExprKind.decode, Written.text?, htext, Option.bind_some, ExprKind.ofJson]
        cases hkind : ExprKind.ofWord text with
        | error fault => exact (ite_self none).symm
        | ok kind => exact ih hrest hlater (some kind) start
    · have hbeside : besideKind (word, v) := by simpa [besideKind] using hname
      rw [if_neg hname, if_neg hname, List.filter_cons_of_pos hbeside, Written.within, hv]
      by_cases hdepth : value.depth ≤ room
      · have hih := ih hrest hlater found ((word, v) :: start)
        have hmax : max value.depth (Written.depthMembers document) ≤ room ↔
            Written.depthMembers document ≤ room := by omega
        simp only [if_pos hdepth, hmax, List.reverse_cons, List.append_assoc]
        exact hih
      · have hmax : ¬max value.depth (Written.depthMembers document) ≤ room := by omega
        rw [if_neg hdepth, if_neg hmax]
        rfl

theorem readParts_besideKind (kind : ExprKind) (members : List (String × Json)) :
    readParts kind.slots [] (members.filter besideKind) = readParts kind.slots [] members := by
  have hpart : ∀ member, (isPart kind.slots member && besideKind member) =
      isPart kind.slots member := by
    intro member
    rw [Bool.and_eq_left_iff_imp, besideKind, bne_iff_ne]
    rintro hsome heq
    rw [isPart, heq, Field.lookup_eq_none_of_notMem (key_notMem_slots kind)] at hsome
    cases hsome
  rw [← readParts_filter, List.filter_filter, funext hpart, readParts_filter]

theorem ofMembers_besideKind (kind : ExprKind) (members : List (String × Json)) :
    ofMembers (some kind) (members.filter besideKind) = ofMembers (some kind) members := by
  simp only [ofMembers, readParts_besideKind]

theorem ofJson_object (members : List (String × Json)) :
    ofJson (.object members) =
      (ExprKind.among none members).bind fun kind => ofMembers (some kind) members := by
  rw [ofJson]
  cases ExprKind.among none members with
  | error fault => rfl
  | ok kind => rfl

/-- A text is read as its value is, as deep as there are levels, unless its kind is no string. -/
theorem decode_object (room : Nat) {document : List (List Piece × Written)}
    (hvs : Written.members? document = some members) (hwords : WordKinds members) :
    decode room (.object document) =
      if (Written.object document).depth ≤ room then (ofJson (.object members)).toOption
      else none := by
  cases room with
  | zero => rfl
  | succ room =>
    have hfold := foldlM_takeMember room hvs hwords none []
    have hdecode : decode (room + 1) (.object document) =
        ((document.foldlM (decodeMember (takeMember room)) (none, [])).bind fun (kind, vs) =>
          kind.map (·, vs)).bind fun (kind, vs) => (ofMembers (some kind) vs.reverse).toOption := by
      rw [decode]
      rcases document.foldlM (decodeMember (takeMember room)) (none, []) with
        _ | ⟨_ | kind, vs⟩ <;> rfl
    rw [hdecode, hfold, ofJson_object, Written.depth]
    simp only [Nat.add_le_add_iff_right]
    split
    · cases ExprKind.among none members with
      | error fault => rfl
      | ok kind =>
        show (ofMembers (some kind) ((members.filter besideKind).reverse ++ []).reverse).toOption =
          (ofMembers (some kind) members).toOption
        rw [List.append_nil, List.reverse_reverse, ofMembers_besideKind]
    · rfl

theorem wordKinds_of_extendedBy (h : node.toJson.ExtendedBy (.object members)) :
    WordKinds members := by
  obtain ⟨_, own, beside, hmembers, hown, hperm, hkey, -⟩ := exists_of_extendedBy h
  obtain rfl := Json.object.inj hmembers
  have hkeys : ExprKind.key ∉ own.map Prod.fst := by
    rw [keys_of_reads (reads_contents node own hown), keys_contents]
    exact key_notMem_slots node.kind
  intro member hmember hname
  rcases List.mem_append.mp (hperm.mem_iff.mp hmember) with hmem | hmem
  · rcases List.mem_cons.mp hmem with rfl | hmem
    · exact ⟨_, rfl⟩
    · exact absurd (List.mem_map.mpr ⟨member, hmem, hname⟩) hkeys
  · exact absurd hname (hkey member hmem)

/-- A written node is decoded from its members alone. -/
theorem decode_of_extendedBy {w : Json} (h : node.toJson.ExtendedBy w) {document : Written}
    (hvalue : document.value? = some w) (room : Nat) :
    decode room document = if document.depth ≤ room then some node else none := by
  obtain ⟨members, _, _, rfl, -⟩ := exists_of_extendedBy h
  obtain ⟨written, rfl, hmembers⟩ := Written.value?_eq_object_iff.mp hvalue
  rw [decode_object room hmembers (wordKinds_of_extendedBy h), ofJson_of_extendedBy h]
  rfl

end Expr

end Setters

import Setters.Proofs.Json.Reading

/-!
# The order of members

`Reorders` relates values that differ in the order of the members of their objects, at any depth.
What a loop over members makes of an object does not depend on that order when its steps for
different keys commute and no key is repeated: `foldlM_reorders`.
-/

namespace Setters.Json

/-- Two keys of different texts. A key that stands for no text differs from every key. -/
def KeysDiffer (key key' : List Piece) : Prop :=
  ∀ text, textOf key = some text → textOf key' ≠ some text

namespace Written

mutual

/-- Whether the second value is the first one with the members of its objects in some order. -/
def Reorders : Written → Written → Prop
  | .null, .null => True
  | .boolean b, .boolean b' => b = b'
  | .number literal, .number literal' => literal = literal'
  | .string pieces, .string pieces' => pieces = pieces'
  | .array items, .array items' => ReordersItems items items'
  | .object members, .object members' =>
    ∃ shuffled, shuffled.Perm members' ∧ ReordersMembers members shuffled
  | _, _ => False

def ReordersItems : List Written → List Written → Prop
  | [], [] => True
  | item :: items, item' :: items' => Reorders item item' ∧ ReordersItems items items'
  | _, _ => False

/-- Whether each member has the key of the one in its place and is reordered into it. -/
def ReordersMembers : List (List Piece × Written) → List (List Piece × Written) → Prop
  | [], [] => True
  | (key, value) :: members, (key', value') :: members' =>
    key = key' ∧ Reorders value value' ∧ ReordersMembers members members'
  | _, _ => False

end

mutual

/-- Whether no object has a repeated key. -/
def DistinctKeys : Written → Prop
  | .array items => DistinctKeysItems items
  | .object members =>
    (members.map Prod.fst).Pairwise KeysDiffer ∧ DistinctKeysMembers members
  | _ => True

def DistinctKeysItems : List Written → Prop
  | [] => True
  | item :: items => DistinctKeys item ∧ DistinctKeysItems items

def DistinctKeysMembers : List (List Piece × Written) → Prop
  | [] => True
  | (_, value) :: members => DistinctKeys value ∧ DistinctKeysMembers members

end

/-- Whether a function on values has no regard to the order of members. -/
def OrderBlind {α : Type} (decode : Written → α) : Prop :=
  ∀ value value', value.Reorders value' → value.DistinctKeys → decode value = decode value'

end Written

variable {α σ κ : Type} {members members' : List (List Piece × Written)}
  {decode : σ → String → Written → Option σ}

theorem KeysDiffer.symm {key key' : List Piece} (h : KeysDiffer key key') :
    KeysDiffer key' key := by
  intro text hkey' hkey
  exact h text hkey hkey'

theorem Written.OrderBlind.comp {β : Type} {decode : Written → α} (h : OrderBlind decode)
    (f : α → β) : OrderBlind fun value => f (decode value) := by
  intro value value' hvalue hkeys
  exact congrArg f (h value value' hvalue hkeys)

/-- Whether values of different keys may be taken into account in either order. -/
def Commutes (decode : σ → String → Written → Option σ) : Prop :=
  ∀ state key key' value value', key ≠ key' →
    ((decode state key value).bind fun state => decode state key' value') =
      (decode state key' value').bind fun state => decode state key value

theorem Commutes.swap (h : Commutes decode) {member member' : List Piece × Written}
    (hkeys : KeysDiffer member.1 member'.1) (state : σ) :
    ((decodeMember decode state member).bind fun state => decodeMember decode state member') =
      (decodeMember decode state member').bind fun state => decodeMember decode state member := by
  unfold decodeMember
  cases hkey : textOf member.1 with
  | none => simp
  | some key =>
    cases hkey' : textOf member'.1 with
    | none => simp
    | some key' =>
      have hne : key ≠ key' := by
        rintro rfl
        exact hkeys key hkey hkey'
      exact h state key key' member.2 member'.2 hne

/-- Members of different keys may be taken into account in any order. -/
theorem foldlM_perm (h : Commutes decode) (hperm : members.Perm members')
    (hkeys : (members.map Prod.fst).Pairwise KeysDiffer) (state : σ) :
    members.foldlM (decodeMember decode) state = members'.foldlM (decodeMember decode) state := by
  induction hperm generalizing state with
  | nil => rfl
  | cons member _ ih =>
    have hrest := (List.pairwise_cons.mp hkeys).2
    rw [List.foldlM_cons, List.foldlM_cons]
    exact congrArg _ (funext (ih hrest))
  | swap member member' members =>
    have hpair := (List.pairwise_cons.mp hkeys).1 member.1 List.mem_cons_self
    have hswap := h.swap hpair state
    simp only [List.foldlM_cons, Option.bind_eq_bind, ← Option.bind_assoc, hswap]
  | trans hfirst _ ih ih' =>
    have hkeys' := (hfirst.map Prod.fst).pairwise hkeys fun hdiffer => hdiffer.symm
    exact (ih hkeys state).trans (ih' hkeys' state)

theorem map_fst_of_reordersMembers (h : Written.ReordersMembers members members') :
    members.map Prod.fst = members'.map Prod.fst := by
  induction members generalizing members' with
  | nil =>
    cases members' with
    | nil => rfl
    | cons member' members' => exact h.elim
  | cons member members ih =>
    cases members' with
    | nil => exact h.elim
    | cons member' members' =>
      obtain ⟨hkey, -, hrest⟩ := h
      rw [List.map_cons, List.map_cons, ih hrest, hkey]

theorem foldlM_reordersMembers (h : Written.ReordersMembers members members')
    (hkeys : Written.DistinctKeysMembers members)
    (hblind : ∀ state key, Written.OrderBlind (decode state key)) (state : σ) :
    members.foldlM (decodeMember decode) state = members'.foldlM (decodeMember decode) state := by
  induction members generalizing members' state with
  | nil =>
    cases members' with
    | nil => rfl
    | cons member' members' => exact h.elim
  | cons member members ih =>
    cases members' with
    | nil => exact h.elim
    | cons member' members' =>
      obtain ⟨key, value⟩ := member
      obtain ⟨key', value'⟩ := member'
      obtain ⟨rfl, hvalue, hrest⟩ := h
      have hmember : decodeMember decode state (key, value) =
          decodeMember decode state (key, value') := by
        have hword : ∀ word, decode state word value = decode state word value' := fun word =>
          hblind state word value value' hvalue hkeys.1
        simp only [decodeMember, hword]
      rw [List.foldlM_cons, List.foldlM_cons, hmember]
      exact congrArg _ (funext (ih hrest hkeys.2))

/-- A loop over the members of an object has no regard to their order. -/
theorem foldlM_reorders (hcomm : Commutes decode)
    (hblind : ∀ state key, Written.OrderBlind (decode state key))
    (h : (Written.object members).Reorders (.object members'))
    (hkeys : (Written.object members).DistinctKeys) (state : σ) :
    members.foldlM (decodeMember decode) state = members'.foldlM (decodeMember decode) state := by
  obtain ⟨shuffled, hperm, hmembers⟩ := h
  have hshuffled : (shuffled.map Prod.fst).Pairwise KeysDiffer :=
    map_fst_of_reordersMembers hmembers ▸ hkeys.1
  calc members.foldlM (decodeMember decode) state
      = shuffled.foldlM (decodeMember decode) state :=
        foldlM_reordersMembers hmembers hkeys.2 hblind state
    _ = members'.foldlM (decodeMember decode) state := foldlM_perm hcomm hperm hshuffled state

theorem decodeRow_reorders {entry : σ → κ → Written → Option σ}
    (short : Nat → σ → Except ContentFault σ)
    (hblind : ∀ state key, Written.OrderBlind (entry state key)) {items items' : List Written}
    (h : Written.ReordersItems items items') (hkeys : Written.DistinctKeysItems items)
    (keys : List κ) (count : Nat) (state : σ) :
    decodeRow entry short keys count state items = decodeRow entry short keys count state items' := by
  induction keys generalizing items items' count state with
  | nil =>
    cases items <;> cases items' <;> first | rfl | exact h.elim
  | cons key keys ih =>
    cases items with
    | nil =>
      cases items' with
      | nil => rfl
      | cons item' items' => exact h.elim
    | cons item items =>
      cases items' with
      | nil => exact h.elim
      | cons item' items' =>
        have hitem := hblind state key item item' h.1 hkeys.1
        rw [decodeRow, decodeRow, hitem]
        exact congrArg _ (funext (ih h.2 hkeys.2 (count + 1)))

end Setters.Json

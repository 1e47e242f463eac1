import Setters.Proofs.Json.Literals

/-!
# Reading written values

What the steps of the readers make of the texts that the grammar of `Written` allows. A reader
`Decodes` a function on written values when it gives the value of that function, and the text
after it, on every text of a value; `readMembers_spells`, `readRow_spells` and `readItems_closed`
say so of the loops over members and items. A number has no end of its own, so of the steps that
read one it is said where the text behind it is `Closed` only. Only success is described: where the
function has no value the reader reports some fault.
-/

namespace Setters.Json

variable {α β σ κ : Type} {lead between after text : List Char} {pieces : List Piece}
  {value : Written}

/-! ### First characters -/

namespace Written

/-- The characters a text of the value may begin with. -/
def Begins : Written → Char → Prop
  | .null, c => c = 'n'
  | .boolean _, c => c = 't' ∨ c = 'f'
  | .number _, c => c = '-' ∨ c.isDigit
  | .string _, c => c = '"'
  | .array _, c => c = '['
  | .object _, c => c = '\x7b'

variable {c : Char}

theorem begins_number (literal : NumberLiteral) :
    ∃ c more, literal.chars = c :: more ∧ (Written.number literal).Begins c := by
  by_cases h : literal.negative
  · exact ⟨'-', literal.magnitude, if_pos h, .inl rfl⟩
  · obtain ⟨c, more, hwhole⟩ := List.exists_cons_of_ne_nil literal.whole.ne_nil
    have hdigit : c.isDigit := literal.whole.isDigit c (hwhole ▸ List.mem_cons_self)
    rw [NumberLiteral.chars, if_neg h, NumberLiteral.magnitude, hwhole, List.cons_append,
      List.cons_append]
    exact ⟨c, _, rfl, .inr hdigit⟩

theorem Spells.begins (h : value.Spells text) : ∃ c more, text = c :: more ∧ value.Begins c := by
  cases value with
  | null => exact ⟨'n', _, h, rfl⟩
  | boolean b =>
    cases b with
    | true => exact ⟨'t', _, h, .inl rfl⟩
    | false => exact ⟨'f', _, h, .inr rfl⟩
  | number literal =>
    obtain ⟨c, more, hchars, hc⟩ := begins_number literal
    exact ⟨c, more, Eq.trans h hchars, hc⟩
  | string pieces => exact ⟨'"', _, h, rfl⟩
  | array items =>
    obtain ⟨inner, htext, -⟩ := h
    exact ⟨'[', _, htext, rfl⟩
  | object members =>
    obtain ⟨inner, htext, -⟩ := h
    exact ⟨'\x7b', _, htext, rfl⟩

theorem Begins.not_blank (h : value.Begins c) : isBlank c = false := by
  rw [Bool.eq_false_iff]
  intro hblank
  simp only [isBlank, Bool.or_eq_true, decide_eq_true_eq] at hblank
  rcases hblank with ((rfl | rfl) | rfl) | rfl <;> cases value <;> simp [Begins] at h

theorem Begins.ne_close (h : value.Begins c) : c ≠ ']' := by
  rintro rfl
  cases value <;> simp [Begins] at h

theorem Begins.null_of (h : value.Begins 'n') : value = .null := by
  cases value <;> simp [Begins] at h ⊢

theorem Begins.string_of (h : value.Begins '"') : ∃ pieces, value = .string pieces := by
  cases value <;> simp [Begins] at h ⊢

theorem Begins.array_of (h : value.Begins '[') : ∃ items, value = .array items := by
  cases value <;> simp [Begins] at h ⊢

theorem Begins.object_of (h : value.Begins '\x7b') : ∃ members, value = .object members := by
  cases value <;> simp [Begins] at h ⊢

end Written

/-! ### Scalars -/

theorem readWord_append (a : α) (word rest : List Char) :
    readWord a word (word ++ rest) = .ok (a, rest) := by
  induction word with
  | nil => rfl
  | cons c word ih => rw [List.cons_append, readWord, if_pos rfl, ih]

theorem mismatch_toOption (wanted : Wanted) (cs : List Char) :
    (mismatch wanted cs : Except Halt (α × List Char)).toOption = none := by
  unfold mismatch
  split
  · rfl
  · rfl
  · split <;> rfl

/-- What a reader makes of every text of a value, whatever blanks come before it and whatever
comes after it. -/
def Decodes (read : Reader α) (decode : Written → Option α) : Prop :=
  ∀ value lead text rest, Blank lead → value.Spells text →
    (read (lead ++ (text ++ rest))).toOption = (decode value).map (·, rest)

/-- The characters that may stand behind a value. None of them carries a number on. -/
def Follows (c : Char) : Prop :=
  isBlank c ∨ c = ',' ∨ c = ']' ∨ c = '\x7d'

/-- Whether a text is one that may stand behind a value. -/
def Closed (cs : List Char) : Prop :=
  ∀ c ∈ cs.head?, Follows c

/-- What a reader makes of every text of a value that ends where the text may end. -/
def DecodesClosed (read : Reader α) (decode : Written → Option α) : Prop :=
  ∀ value lead text rest, Blank lead → value.Spells text → Closed rest →
    (read (lead ++ (text ++ rest))).toOption = (decode value).map (·, rest)

theorem Decodes.closed {read : Reader α} {decode : Written → Option α} (h : Decodes read decode) :
    DecodesClosed read decode :=
  fun value lead text rest hlead hspells _ => h value lead text rest hlead hspells

theorem Closed.of_blank {cs : List Char} (h : Blank cs) {c : Char} (hc : Follows c)
    (rest : List Char) : Closed (cs ++ c :: rest) := by
  intro d hd
  cases cs with
  | nil =>
    obtain rfl := Option.some.inj hd
    exact hc
  | cons c cs =>
    obtain rfl := Option.some.inj hd
    exact .inl (h _ List.mem_cons_self)

theorem Written.SpellsMembers.closed {members : List (List Piece × Written)} {inner : List Char}
    (h : Written.SpellsMembers false members inner) (rest : List Char) :
    Closed (inner ++ '\x7d' :: rest) := by
  cases members with
  | nil => exact .of_blank h (.inr (.inr (.inr rfl))) rest
  | cons member members =>
    obtain ⟨_, _, _, _, _, rfl, ⟨before, _, rfl, hbefore, -⟩, -⟩ := h
    simp only [List.append_assoc, List.cons_append]
    exact .of_blank hbefore (.inr (.inl rfl)) _

theorem Written.SpellsItems.closed {items : List Written} {inner : List Char}
    (h : Written.SpellsItems false items inner) (rest : List Char) :
    Closed (inner ++ ']' :: rest) := by
  cases items with
  | nil => exact .of_blank h (.inr (.inr (.inl rfl))) rest
  | cons item items =>
    obtain ⟨_, _, _, rfl, ⟨before, _, rfl, hbefore, -⟩, -⟩ := h
    simp only [List.append_assoc, List.cons_append]
    exact .of_blank hbefore (.inr (.inl rfl)) _

def Written.text? : Written → Option String
  | .string pieces => textOf pieces
  | _ => none

/-- What a function makes of a value other than null. -/
def Written.orNull (decode : Written → Option α) : Written → Option (Option α)
  | .null => some none
  | value => (decode value).map some

theorem skipBlanks_value {c : Char} (hlead : Blank lead) (h : value.Begins c) (cs : List Char) :
    skipBlanks (lead ++ c :: cs) = c :: cs :=
  skipBlanks_lead hlead h.not_blank cs

theorem Written.Spells.readText {rest : List Char}
    (h : (Written.string pieces).Spells ('"' :: text)) :
    (readText (text ++ rest)).toOption = (textOf pieces).map (·, rest) := by
  have htext : text = pieceChars pieces ++ ['"'] := (List.cons.inj h).2
  rw [htext, List.append_assoc]
  exact readText_pieces pieces rest

theorem readString_decodes (wanted : Wanted) : Decodes (readString wanted) Written.text? := by
  intro value lead text rest hlead hspells
  obtain ⟨c, more, rfl, hc⟩ := hspells.begins
  rw [readString, List.cons_append, skipBlanks_value hlead hc]
  split
  · rename_i heq
    obtain ⟨rfl, rfl⟩ := List.cons.inj heq
    obtain ⟨pieces, rfl⟩ := hc.string_of
    rw [toOption_ofForm, hspells.readText, Written.text?]
  · rename_i hquote
    have hnone : value.text? = none := by
      cases value <;> try rfl
      obtain rfl : c = '"' := hc
      exact absurd rfl (hquote _)
    rw [mismatch_toOption, hnone, Option.map_none]

theorem Decodes.map {read : Reader α} {decode : Written → Option α} (h : Decodes read decode)
    (f : α → β) :
    Decodes (fun cs => (read cs).map fun (a, rest) => (f a, rest))
      (fun value => (decode value).map f) := by
  intro value lead text rest hlead hspells
  rw [toOption_map, h value lead text rest hlead hspells, Option.map_map, Option.map_map]
  rfl

/-- What is found is checked before it is given out. -/
theorem toOption_check {outcome : Except Halt (α × List Char)}
    {checked : Except Halt (β × List Char)} {found : Option α} {rest : List Char}
    (h : outcome.toOption = found.map (·, rest)) (f : α → Except ContentFault β)
    (hok : ∀ a, outcome = .ok (a, rest) →
      checked.toOption = (ofContent rest (f a)).toOption)
    (herror : ∀ halt, outcome = .error halt → checked = .error halt) :
    checked.toOption = (found.bind fun a => (f a).toOption).map (·, rest) := by
  rcases outcome_cases h with ⟨hfound, halt, hhalt⟩ | ⟨a, hfound, hresult⟩
  · rw [herror halt hhalt, hfound]
    rfl
  · rw [hok a hresult, hfound, Option.bind_some, toOption_ofContent]

theorem Decodes.check {read : Reader α} {checked : Reader β} {decode : Written → Option α}
    (h : Decodes read decode) (f : α → Except ContentFault β)
    (hok : ∀ cs a rest, read cs = .ok (a, rest) →
      (checked cs).toOption = (ofContent rest (f a)).toOption)
    (herror : ∀ cs halt, read cs = .error halt → checked cs = .error halt) :
    Decodes checked (fun value => (decode value).bind fun a => (f a).toOption) := by
  intro value lead text rest hlead hspells
  have hread := h value lead text rest hlead hspells
  exact toOption_check hread f (fun a => hok _ a rest) (herror _)

theorem Decodes.entry {read : Reader α} {decode : Written → Option α} (h : Decodes read decode)
    (set : α → σ → σ) (draft : σ) :
    Decodes (fun cs => (read cs).map fun (a, rest) => (set a draft, rest))
      (fun value => ((decode value).map set).map (· draft)) := by
  intro value lead text rest hlead hspells
  rw [toOption_map, h value lead text rest hlead hspells]
  simp only [Option.map_map]
  rfl

theorem Decodes.orNull {read : Reader α} {decode : Written → Option α}
    (h : Decodes read decode) : Decodes (readOption read) (Written.orNull decode) := by
  intro value lead text rest hlead hspells
  obtain ⟨c, more, rfl, hc⟩ := hspells.begins
  rw [readOption, List.cons_append, skipBlanks_value hlead hc]
  split
  · rename_i heq
    obtain ⟨rfl, rfl⟩ := List.cons.inj heq
    obtain rfl := hc.null_of
    obtain rfl : more = ['u', 'l', 'l'] := (List.cons.inj hspells).2
    rw [toOption_ofForm, readWord_append]
    rfl
  · rename_i hnull
    have hsome : Written.orNull decode value = (decode value).map some := by
      cases value <;> try rfl
      obtain rfl : c = 'n' := hc
      exact absurd rfl (hnull _)
    have hread := h value [] _ rest blank_nil hspells
    rw [toOption_map, ← List.cons_append, ← List.nil_append (_ ++ rest), hread, hsome,
      Option.map_map, Option.map_map]
    rfl

/-! ### Members -/

/-- What a step that reads a member after its key makes of every text of colon and value. -/
def DecodesMember (step : σ → String → Reader σ) (decode : σ → String → Written → Option σ) :
    Prop :=
  ∀ state key value between after text rest, Blank between → Blank after → value.Spells text →
    (step state key (between ++ ':' :: (after ++ (text ++ rest)))).toOption =
      (decode state key value).map (·, rest)

/-- What a step that reads a member makes of a text of colon and value that ends where it may. -/
def DecodesMemberClosed (step : σ → String → Reader σ)
    (decode : σ → String → Written → Option σ) : Prop :=
  ∀ state key value between after text rest, Blank between → Blank after → value.Spells text →
    Closed rest →
    (step state key (between ++ ':' :: (after ++ (text ++ rest)))).toOption =
      (decode state key value).map (·, rest)

theorem DecodesMember.closed {step : σ → String → Reader σ}
    {decode : σ → String → Written → Option σ} (h : DecodesMember step decode) :
    DecodesMemberClosed step decode :=
  fun state key value between after text rest hbetween hafter hspells _ =>
    h state key value between after text rest hbetween hafter hspells

def decodeMember (decode : σ → String → Written → Option σ) (state : σ)
    (member : List Piece × Written) : Option σ :=
  (textOf member.1).bind fun key => decode state key member.2

theorem nextKey_close {first : Bool} {cs : List Char} (h : Blank cs) (rest : List Char) :
    nextKey first (cs ++ '\x7d' :: rest) = .ok (none, rest) := by
  rw [nextKey, skipBlanks_lead h (by decide)]
  rfl

theorem readText_quoted (key : List Piece) (rest : List Char) :
    (readText (pieceChars key ++ ['"'] ++ rest)).toOption = (textOf key).map (·, rest) := by
  rw [List.append_assoc]
  exact readText_pieces key rest

theorem nextKey_lead {first : Bool} (h : Lead first lead) (cs : List Char) :
    nextKey first (lead ++ '"' :: cs) =
      (ofForm (readText cs)).map fun (key, rest) => (some key, rest) := by
  cases first with
  | true =>
    rw [nextKey, skipBlanks_lead h (by decide)]
    rfl
  | false =>
    obtain ⟨before, after, rfl, hbefore, hafter⟩ := h
    have hquote : skipBlanks (after ++ '"' :: cs) = '"' :: cs :=
      skipBlanks_lead hafter (by decide) cs
    rw [nextKey, List.append_assoc, List.cons_append, skipBlanks_lead hbefore (by decide)]
    simp [hquote]

theorem nextKey_quoted {first : Bool} (h : Lead first lead) (key : List Piece)
    (rest : List Char) :
    (nextKey first (lead ++ (quoted key ++ rest))).toOption =
      (textOf key).map fun text => (some text, rest) := by
  have hread := readText_quoted key rest
  rw [quoted, List.cons_append, nextKey_lead h, toOption_map, toOption_ofForm, hread,
    Option.map_map]
  rfl

/-- The members of an object are taken into account one after the other. -/
theorem readMembers_spells {step : σ → String → Reader σ}
    {decode : σ → String → Written → Option σ} (hstep : DecodesMemberClosed step decode)
    {members : List (List Piece × Written)} {first : Bool} {inner : List Char} {fuel : Nat}
    (hfuel : members.length < fuel) (h : Written.SpellsMembers first members inner) (state : σ)
    (rest : List Char) :
    (readMembers step fuel first state (inner ++ '\x7d' :: rest)).toOption =
      (members.foldlM (decodeMember decode) state).map (·, rest) := by
  induction members generalizing first inner fuel state with
  | nil =>
    obtain ⟨fuel, rfl⟩ := Nat.exists_eq_succ_of_ne_zero (Nat.ne_zero_of_lt hfuel)
    rw [readMembers, nextKey_close h]
    rfl
  | cons member members ih =>
    obtain ⟨key, value⟩ := member
    obtain ⟨lead, between, after, text, more, rfl, hlead, hbetween, hafter, hvalue, hmore⟩ := h
    obtain ⟨fuel, rfl⟩ := Nat.exists_eq_succ_of_ne_zero (Nat.ne_zero_of_lt hfuel)
    have hlater : members.length < fuel := Nat.lt_of_succ_lt_succ hfuel
    -- the text is cut into the key, the colon with the value, and the members that are left
    have hcut : lead ++ (quoted key ++ (between ++ ':' :: (after ++ (text ++ more)))) ++
        '\x7d' :: rest = lead ++ (quoted key ++
          (between ++ ':' :: (after ++ (text ++ (more ++ '\x7d' :: rest))))) := by
      simp
    have hkey := nextKey_quoted hlead key
      (between ++ ':' :: (after ++ (text ++ (more ++ '\x7d' :: rest))))
    rw [hcut, readMembers, List.foldlM_cons, decodeMember]
    rcases outcome_cases hkey with ⟨htext, fault, hfault⟩ | ⟨word, htext, hread⟩
    · rw [hfault, htext]
      rfl
    · have hvalue := hstep state word value between after text (more ++ '\x7d' :: rest) hbetween
        hafter hvalue (hmore.closed rest)
      rw [hread, htext, Option.bind_eq_bind, Option.bind_some]
      rcases outcome_cases hvalue with ⟨hstate, fault, hfault⟩ | ⟨state', hstate, hread'⟩
      · simp only [hfault, hstate]
        rfl
      · simp only [hread', hstate]
        exact ih hlater hmore state'

theorem Written.SpellsMembers.length_le {members : List (List Piece × Written)} {first : Bool}
    {inner : List Char} (h : Written.SpellsMembers first members inner) :
    members.length ≤ inner.length := by
  induction members generalizing first inner with
  | nil => exact Nat.zero_le _
  | cons member members ih =>
    obtain ⟨key, value⟩ := member
    obtain ⟨lead, between, after, text, more, rfl, -, -, -, -, hmore⟩ := h
    have hle := ih hmore
    simp only [List.length_cons, List.length_append]
    omega

theorem readObject_closed {step : σ → String → Reader σ}
    {decode : σ → String → Written → Option σ} (hstep : DecodesMemberClosed step decode)
    {members : List (List Piece × Written)} {inner : List Char}
    (h : Written.SpellsMembers true members inner) (start : σ) (rest : List Char) :
    (readObject step start (inner ++ '\x7d' :: rest)).toOption =
      (members.foldlM (decodeMember decode) start).map (·, rest) := by
  have hle := h.length_le
  refine readMembers_spells hstep ?_ h start rest
  simp only [List.length_append]
  omega

theorem readObject_spells {step : σ → String → Reader σ}
    {decode : σ → String → Written → Option σ} (hstep : DecodesMember step decode)
    {members : List (List Piece × Written)} {inner : List Char}
    (h : Written.SpellsMembers true members inner) (start : σ) (rest : List Char) :
    (readObject step start (inner ++ '\x7d' :: rest)).toOption =
      (members.foldlM (decodeMember decode) start).map (·, rest) :=
  readObject_closed hstep.closed h start rest

/-! ### Rows -/

/-- Takes the items of a row into account, each for the key in its place. -/
def decodeRow (decode : σ → κ → Written → Option σ)
    (short : Nat → σ → Except ContentFault σ) :
    List κ → Nat → σ → List Written → Option σ
  | [], _, state, [] => some state
  | [], _, _, _ :: _ => none
  | _ :: _, count, state, [] => (short count state).toOption
  | key :: keys, count, state, item :: items =>
    (decode state key item).bind fun state => decodeRow decode short keys (count + 1) state items

theorem nextItem_close {first : Bool} {cs : List Char} (h : Blank cs) (rest : List Char) :
    nextItem first (cs ++ ']' :: rest) = .ok (false, rest) := by
  rw [nextItem, skipBlanks_lead h (by decide)]
  rfl

theorem nextItem_value {first : Bool} {c : Char} (h : Lead first lead) (hc : value.Begins c)
    (cs : List Char) : nextItem first (lead ++ c :: cs) = .ok (true, c :: cs) := by
  cases first with
  | true =>
    rw [nextItem, skipBlanks_value h hc]
    simp [hc.ne_close]
  | false =>
    obtain ⟨before, after, rfl, hbefore, hafter⟩ := h
    have hitem : skipBlanks (after ++ c :: cs) = c :: cs := skipBlanks_value hafter hc cs
    rw [nextItem, List.append_assoc, List.cons_append, skipBlanks_lead hbefore (by decide)]
    simp [hitem, hc.ne_close]

theorem skipBlanks_item {first : Bool} {c : Char} (h : Lead first lead) (hc : value.Begins c)
    (cs : List Char) : ∃ d more, skipBlanks (lead ++ c :: cs) = d :: more ∧ d ≠ ']' := by
  cases first with
  | true => exact ⟨c, cs, skipBlanks_value h hc cs, hc.ne_close⟩
  | false =>
    obtain ⟨before, after, rfl, hbefore, -⟩ := h
    refine ⟨',', after ++ c :: cs, ?_, by decide⟩
    rw [List.append_assoc, List.cons_append, skipBlanks_lead hbefore (by decide)]

/-- A row that has all its items takes no further one. -/
theorem closeRow_spells {items : List Written} {inner : List Char} {first : Bool}
    (h : Written.SpellsItems first items inner) (state : σ) (rest : List Char) :
    (closeRow state (inner ++ ']' :: rest)).toOption =
      if items.isEmpty then some (state, rest) else none := by
  cases items with
  | nil =>
    rw [closeRow, skipBlanks_lead h (by decide)]
    rfl
  | cons item items =>
    obtain ⟨lead, text, more, rfl, hlead, hspells, -⟩ := h
    obtain ⟨c, text, rfl, hc⟩ := hspells.begins
    obtain ⟨d, cs, hskip, hd⟩ := skipBlanks_item hlead hc (text ++ more ++ ']' :: rest)
    have hcut : lead ++ (c :: text ++ more) ++ ']' :: rest =
        lead ++ c :: (text ++ more ++ ']' :: rest) := by simp
    rw [hcut, closeRow, hskip]
    split
    · rfl
    · rename_i heq
      exact absurd (List.cons.inj heq).1 hd
    · split <;> rfl
    · rfl

/-- The items of a row are taken into account one after the other. -/
theorem readRow_spells {step : σ → κ → Reader σ} {decode : σ → κ → Written → Option σ}
    (hstep : ∀ state key, Decodes (step state key) (decode state key))
    (short : Nat → σ → Except ContentFault σ) {keys : List κ} {items : List Written}
    {count : Nat} {inner : List Char}
    (h : Written.SpellsItems (count == 0) items inner) (state : σ) (rest : List Char) :
    (readRow step short keys count state (inner ++ ']' :: rest)).toOption =
      (decodeRow decode short keys count state items).map (·, rest) := by
  induction keys generalizing items count inner state with
  | nil =>
    rw [readRow, closeRow_spells h]
    cases items <;> rfl
  | cons key keys ih =>
    cases items with
    | nil =>
      rw [readRow, nextItem_close h, decodeRow]
      exact (toOption_settle _ _).trans (toOption_ofContent _ _)
    | cons item items =>
      obtain ⟨lead, text, more, rfl, hlead, hspells, hmore⟩ := h
      obtain ⟨c, tail, rfl, hc⟩ := hspells.begins
      have hcut : lead ++ (c :: tail ++ more) ++ ']' :: rest =
          lead ++ c :: (tail ++ (more ++ ']' :: rest)) := by simp
      have hitem := hstep state key item [] (c :: tail) (more ++ ']' :: rest)
        blank_nil hspells
      rw [List.nil_append, List.cons_append] at hitem
      rw [hcut, readRow, nextItem_value hlead hc, decodeRow]
      rcases outcome_cases hitem with ⟨hstate, fault, hfault⟩ | ⟨state', hstate, hread⟩
      · simp only [hfault, hstate]
        rfl
      · simp only [hread, hstate]
        refine ih ?_ state'
        exact hmore

/-! ### Arrays -/

/-- The items of an array are taken into account one after the other. -/
theorem readItems_closed {step : σ → Reader σ} {decode : σ → Written → Option σ}
    (hstep : ∀ state, DecodesClosed (step state) (decode state)) {items : List Written}
    {first : Bool} {inner : List Char} {fuel : Nat} (hfuel : items.length < fuel)
    (h : Written.SpellsItems first items inner) (state : σ) (rest : List Char) :
    (readItems step fuel first state (inner ++ ']' :: rest)).toOption =
      (items.foldlM decode state).map (·, rest) := by
  induction items generalizing first inner fuel state with
  | nil =>
    obtain ⟨fuel, rfl⟩ := Nat.exists_eq_succ_of_ne_zero (Nat.ne_zero_of_lt hfuel)
    rw [readItems, nextItem_close h]
    rfl
  | cons item items ih =>
    obtain ⟨lead, text, more, rfl, hlead, hspells, hmore⟩ := h
    obtain ⟨fuel, rfl⟩ := Nat.exists_eq_succ_of_ne_zero (Nat.ne_zero_of_lt hfuel)
    have hlater : items.length < fuel := Nat.lt_of_succ_lt_succ hfuel
    obtain ⟨c, tail, rfl, hc⟩ := hspells.begins
    have hcut : lead ++ (c :: tail ++ more) ++ ']' :: rest =
        lead ++ c :: (tail ++ (more ++ ']' :: rest)) := by simp
    have hitem := hstep state item [] (c :: tail) (more ++ ']' :: rest) blank_nil hspells
      (hmore.closed rest)
    rw [List.nil_append, List.cons_append] at hitem
    rw [hcut, readItems, nextItem_value hlead hc, List.foldlM_cons, Option.bind_eq_bind]
    rcases outcome_cases hitem with ⟨hstate, fault, hfault⟩ | ⟨state', hstate, hread⟩
    · simp only [hfault, hstate]
      rfl
    · simp only [hread, hstate, Option.bind_some]
      exact ih hlater hmore state'

theorem Written.SpellsItems.length_le {items : List Written} {first : Bool} {inner : List Char}
    (h : Written.SpellsItems first items inner) : items.length ≤ inner.length := by
  induction items generalizing first inner with
  | nil => exact Nat.zero_le _
  | cons item items ih =>
    obtain ⟨lead, text, more, rfl, -, hspells, hmore⟩ := h
    obtain ⟨c, tail, rfl, -⟩ := hspells.begins
    have hle := ih hmore
    simp only [List.length_cons, List.length_append]
    omega

theorem readArray_closed {step : σ → Reader σ} {decode : σ → Written → Option σ}
    (hstep : ∀ state, DecodesClosed (step state) (decode state)) {items : List Written}
    {inner : List Char} (h : Written.SpellsItems true items inner) (start : σ)
    (rest : List Char) :
    (readArray step start (inner ++ ']' :: rest)).toOption =
      (items.foldlM decode start).map (·, rest) := by
  have hle := h.length_le
  refine readItems_closed hstep ?_ h start rest
  simp only [List.length_append]
  omega

/-! ### Documents -/

theorem readDocument_toOption {read : Nat → Reader α} {decode : Written → Option α}
    (h : Decodes (read maxDepth) decode) {document : String} (hdoc : value.IsDocument document) :
    (readDocument read document).toOption = decode value := by
  obtain ⟨before, body, after, htext, hbefore, hafter, hspells⟩ := hdoc
  have hread := h value before body after hbefore hspells
  rw [readDocument, htext]
  rcases outcome_cases hread with ⟨hvalue, fault, hfault⟩ | ⟨a, hvalue, hresult⟩
  · rw [hfault, hvalue]
    rfl
  · have hend : skipBlanks after = [] := by
      rw [← List.append_nil after, skipBlanks_append hafter]
      rfl
    simp only [hresult, hend, hvalue]
    rfl

end Setters.Json

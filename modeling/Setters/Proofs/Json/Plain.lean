import Setters.Proofs.Json.Reading
import Setters.Proofs.Json.Value

/-!
# Plain values are read as they are written

`readValue_decodes`: the reader of plain values gives the value of every text that may end where
it ends, if the brackets in it nest at most as deep as there are levels. What may stand behind a
value matters to numbers alone, which have no end of their own.
-/

namespace Setters.Json

variable {cs rest tail : List Char}

/-! ### Behind a number -/

/-- What may stand behind a value carries no part of a number on. -/
theorem Follows.not_number {c : Char} (h : Follows c) :
    ¬c.isDigit ∧ ¬isExponentMark c ∧ c ≠ '.' ∧ c ≠ '+' ∧ c ≠ '-' := by
  rcases h with hblank | rfl | rfl | rfl
  · simp only [isBlank, Bool.or_eq_true, decide_eq_true_eq] at hblank
    rcases hblank with ((rfl | rfl) | rfl) | rfl <;> decide
  · decide
  · decide
  · decide

theorem readRealEnd_closed (h : Closed rest) (negative : Bool) (significand : Nat)
    (exponent : Int) :
    readRealEnd negative significand exponent rest =
      withRest rest (realOfParts negative significand exponent) := by
  cases rest with
  | nil => rfl
  | cons c rest => rw [readRealEnd, if_neg (h c rfl).not_number.2.1]

/-! ### Numbers -/

theorem toOption_withRest (rest : List Char) (result : Except Malformed Number) :
    (withRest rest result).toOption = result.toOption.map (·, rest) := by
  cases result <;> rfl

theorem spanDigits_append (digits : Digits) (h : ∀ c ∈ tail.head?, ¬c.isDigit) :
    spanDigits (digits.chars ++ tail) = (digits.chars, tail) := by
  have htake : tail.takeWhile Char.isDigit = [] := by
    cases tail with
    | nil => rfl
    | cons c tail => exact List.takeWhile_cons_of_neg (h c rfl)
  have hdrop : tail.dropWhile Char.isDigit = tail := by
    cases tail with
    | nil => rfl
    | cons c tail => exact List.dropWhile_cons_of_neg (h c rfl)
  rw [spanDigits, List.takeWhile_append_of_pos digits.isDigit,
    List.dropWhile_append_of_pos digits.isDigit, htake, hdrop, List.append_nil]

/-- Whether a text is read to its end, as the same number whatever may stand behind it. -/
def Settled (read : List Char → Except Flaw (Number × List Char)) (cs : List Char) : Prop :=
  ∃ number : Option Number,
    ∀ rest, Closed rest → (read (cs ++ rest)).toOption = number.map (·, rest)

theorem exists_readSign (exponent : Exponent) :
    ∃ positive, ∀ rest, readSign (exponent.sign ++ (exponent.digits.chars ++ rest)) =
      (positive, exponent.digits.chars ++ rest) := by
  obtain ⟨c, more, hchars⟩ := List.exists_cons_of_ne_nil exponent.digits.ne_nil
  have hdigit : c.isDigit := exponent.digits.isDigit c (hchars ▸ List.mem_cons_self)
  have hcases : exponent.sign = [] ∨ exponent.sign = ['+'] ∨ exponent.sign = ['-'] := by
    simpa using exponent.isSign
  rcases hcases with hsign | hsign | hsign
  · refine ⟨true, fun rest => ?_⟩
    rw [hsign, hchars, List.nil_append, List.cons_append, readSign]
    · rintro rest' heq
      obtain ⟨rfl, -⟩ := List.cons.inj heq
      exact absurd hdigit (by decide)
    · rintro rest' heq
      obtain ⟨rfl, -⟩ := List.cons.inj heq
      exact absurd hdigit (by decide)
  · exact ⟨true, fun rest => by rw [hsign]; rfl⟩
  · exact ⟨false, fun rest => by rw [hsign]; rfl⟩

theorem readExponent_settled (exponent : Exponent) (negative : Bool) (significand : Nat)
    (start : Int) :
    Settled (readExponent negative significand start)
      (exponent.sign ++ exponent.digits.chars) := by
  obtain ⟨positive, hsign⟩ := exists_readSign exponent
  have hne : ¬exponent.digits.chars.isEmpty := by
    rw [List.isEmpty_iff]
    exact exponent.digits.ne_nil
  refine ⟨if Nat.pow 2 31 ≤ digitsValue exponent.digits.chars then
      if significand ≠ 0 && positive then none else some (.real (.zero negative))
    else
      (realOfParts negative significand
        (if positive then start + digitsValue exponent.digits.chars
          else start - digitsValue exponent.digits.chars)).toOption, fun rest hrest => ?_⟩
  have hspan := spanDigits_append exponent.digits fun c hc => (hrest c hc).not_number.1
  rw [List.append_assoc]
  simp only [readExponent, hsign, hspan, if_neg hne]
  split
  · split <;> rfl
  · exact toOption_withRest rest _

def exponentChars (exponent : Option Exponent) : List Char :=
  exponent.elim [] Exponent.chars

theorem head_exponentChars (exponent : Option Exponent) (hrest : Closed rest) :
    ∀ c ∈ (exponentChars exponent ++ rest).head?, ¬c.isDigit ∧ c ≠ '.' := by
  intro c hc
  cases exponent with
  | none => exact ⟨(hrest c hc).not_number.1, (hrest c hc).not_number.2.2.1⟩
  | some exponent =>
    obtain rfl := Option.some.inj hc
    have hmark := exponent.isMark
    simp only [isExponentMark, Bool.or_eq_true, decide_eq_true_eq] at hmark
    rcases hmark with heq | heq <;> rw [heq] <;> decide

theorem readRealEnd_settled (exponent : Option Exponent) (negative : Bool) (significand : Nat)
    (start : Int) :
    Settled (readRealEnd negative significand start) (exponentChars exponent) := by
  cases exponent with
  | none =>
    refine ⟨(realOfParts negative significand start).toOption, fun rest hrest => ?_⟩
    have hread := readRealEnd_closed hrest negative significand start
    exact (congrArg Except.toOption hread).trans (toOption_withRest rest _)
  | some exponent =>
    obtain ⟨number, hnumber⟩ := readExponent_settled exponent negative significand start
    refine ⟨number, fun rest hrest => ?_⟩
    rw [← hnumber rest hrest]
    exact congrArg Except.toOption (if_pos exponent.isMark)

theorem readFraction_settled (digits : Digits) (exponent : Option Exponent) (negative : Bool)
    (significand : Nat) (start : Int) :
    Settled (readFraction negative significand start)
      (digits.chars ++ exponentChars exponent) := by
  have hne : ¬digits.chars.isEmpty := by
    rw [List.isEmpty_iff]
    exact digits.ne_nil
  obtain ⟨number, hnumber⟩ := readRealEnd_settled exponent negative
    (gather significand digits.chars).1
    (start - (digits.chars.length - (gather significand digits.chars).2.length : Nat))
  refine ⟨number, fun rest hrest => ?_⟩
  have hspan := spanDigits_append digits fun c hc => (head_exponentChars exponent hrest c hc).1
  rw [List.append_assoc, ← hnumber rest hrest]
  simp only [readFraction, hspan, if_neg hne]

def fractionChars (fraction : Option Digits) : List Char :=
  fraction.elim [] fun digits => '.' :: digits.chars

/-- Where no fraction is written, the digits are an integer unless an exponent is, or some of them
have been left out. -/
theorem readIntegerEnd_exponent (exponent : Option Exponent) (hrest : Closed rest)
    (negative : Bool) (significand excess : Nat) :
    readIntegerEnd negative significand excess (exponentChars exponent ++ rest) =
      if excess = 0 && !((exponentChars exponent ++ rest).head?.any isExponentMark) then
        .ok (integerOfParts negative significand, exponentChars exponent ++ rest)
      else readRealEnd negative significand excess (exponentChars exponent ++ rest) := by
  have hhead := head_exponentChars exponent hrest
  rw [readIntegerEnd]
  intro more heq
  rw [heq] at hhead
  exact (hhead '.' rfl).2 rfl

theorem readIntegerEnd_settled (fraction : Option Digits) (exponent : Option Exponent)
    (negative : Bool) (significand excess : Nat) :
    Settled (readIntegerEnd negative significand excess)
      (fractionChars fraction ++ exponentChars exponent) := by
  cases fraction with
  | some digits =>
    obtain ⟨number, hnumber⟩ := readFraction_settled digits exponent negative significand excess
    exact ⟨number, hnumber⟩
  | none =>
    obtain ⟨number, hnumber⟩ := readRealEnd_settled exponent negative significand excess
    cases exponent with
    | some exponent =>
      refine ⟨number, fun rest hrest => ?_⟩
      have hany : (exponentChars (some exponent) ++ rest).head?.any isExponentMark :=
        exponent.isMark
      have hmark : ¬(excess = 0 &&
          !((exponentChars (some exponent) ++ rest).head?.any isExponentMark)) := by
        rw [hany, Bool.not_true, Bool.and_false]
        exact Bool.false_ne_true
      have hread := readIntegerEnd_exponent (some exponent) hrest negative significand excess
      rw [← hnumber rest hrest]
      exact congrArg Except.toOption (hread.trans (if_neg hmark))
    | none =>
      refine ⟨if excess = 0 then some (integerOfParts negative significand) else number,
        fun rest hrest => ?_⟩
      have hread := readIntegerEnd_exponent none hrest negative significand excess
      have hmark : rest.head?.any isExponentMark = false := by
        cases rest with
        | nil => rfl
        | cons c rest => exact Bool.eq_false_iff.mpr (hrest c rfl).not_number.2.1
      refine (congrArg Except.toOption hread).trans ?_
      rw [exponentChars, Option.elim_none, List.nil_append, hmark]
      -- with digits left out the number is no integer any more
      by_cases hexcess : excess = 0
      · rw [if_pos hexcess, hexcess]
        rfl
      · rw [if_neg hexcess, decide_eq_false hexcess, ← hnumber rest hrest]
        rfl

theorem readNumber_settled (literal : NumberLiteral) (negative : Bool) :
    Settled (readNumber negative) literal.magnitude := by
  obtain ⟨number, hnumber⟩ := readIntegerEnd_settled literal.fraction literal.exponent negative
    (gather 0 literal.whole.chars).1 (gather 0 literal.whole.chars).2.length
  refine ⟨number, fun rest hrest => ?_⟩
  have hhead : ∀ c ∈ (fractionChars literal.fraction ++
      (exponentChars literal.exponent ++ rest)).head?, ¬c.isDigit := by
    cases literal.fraction with
    | none => exact fun c hc => (head_exponentChars literal.exponent hrest c hc).1
    | some digits =>
      intro c hc
      obtain rfl := Option.some.inj hc
      decide
  have hspan := spanDigits_append literal.whole hhead
  have htext : literal.magnitude ++ rest = literal.whole.chars ++
      (fractionChars literal.fraction ++ (exponentChars literal.exponent ++ rest)) := by
    rw [NumberLiteral.magnitude, List.append_assoc, List.append_assoc]
    rfl
  rw [htext, readNumber, hspan, ← hnumber rest hrest, List.append_assoc]
  dsimp only
  split
  · rename_i hnil
    exact absurd hnil literal.whole.ne_nil
  · rename_i hzero
    have hlone := literal.leading (by rw [hzero]; rfl)
    rw [hzero] at hlone
    cases hlone
  · rfl

/-! ### Scalars -/

theorem readScalar_digit {c : Char} (h : c.isDigit) (cs : List Char) :
    readScalar (c :: cs) = (readNumber false (c :: cs)).map fun (n, rest) => (.number n, rest) := by
  have hne : ∀ d, ¬d.isDigit → c ≠ d := by
    rintro d hd rfl
    exact hd h
  rw [readScalar, if_pos h]
  · exact hne 'n' (by decide)
  · exact hne 't' (by decide)
  · exact hne 'f' (by decide)
  · exact hne '"' (by decide)
  · exact hne '-' (by decide)

theorem exists_readScalar_number (literal : NumberLiteral) :
    ∃ number : Option Number, ∀ rest, Closed rest →
      (readScalar (literal.chars ++ rest)).toOption =
        number.map fun n => (.number n, rest) := by
  have hsettled : ∃ number : Option Number, ∀ rest, Closed rest →
      (readScalar (literal.chars ++ rest)).toOption =
        (number.map (·, rest)).map fun (n, rest) => (.number n, rest) := by
    by_cases hnegative : literal.negative
    · obtain ⟨number, hnumber⟩ := readNumber_settled literal true
      refine ⟨number, fun rest hrest => ?_⟩
      rw [NumberLiteral.chars, if_pos hnegative, ← hnumber rest hrest, ← toOption_map]
      rfl
    · obtain ⟨number, hnumber⟩ := readNumber_settled literal false
      refine ⟨number, fun rest hrest => ?_⟩
      obtain ⟨c, more, hwhole⟩ := List.exists_cons_of_ne_nil literal.whole.ne_nil
      have hdigit : c.isDigit := literal.whole.isDigit c (hwhole ▸ List.mem_cons_self)
      have hbegins : ∃ after, literal.magnitude ++ rest = c :: after := by
        rw [NumberLiteral.magnitude, hwhole]
        exact ⟨_, rfl⟩
      obtain ⟨after, hafter⟩ := hbegins
      rw [NumberLiteral.chars, if_neg hnegative, ← hnumber rest hrest, hafter,
        readScalar_digit hdigit, toOption_map]
  obtain ⟨number, hnumber⟩ := hsettled
  refine ⟨number, fun rest hrest => (hnumber rest hrest).trans ?_⟩
  cases number <;> rfl

theorem closed_nil : Closed [] := by
  intro c hc
  cases hc

theorem readScalar_number (literal : NumberLiteral) (h : Closed rest) :
    (readScalar (literal.chars ++ rest)).toOption =
      literal.value?.map fun n => (.number n, rest) := by
  obtain ⟨number, hnumber⟩ := exists_readScalar_number literal
  have halone := hnumber [] closed_nil
  rw [List.append_nil] at halone
  have hvalue : literal.value? = number := by
    rw [NumberLiteral.value?]
    rcases outcome_cases halone with ⟨rfl, halt, hread⟩ | ⟨n, rfl, hread⟩
    · rw [hread]
    · rw [hread]
  rw [hnumber rest h, hvalue]

/-- A value without brackets is read to its end. -/
theorem readScalar_closed {value : Written} {text : List Char} (h : value.Spells text)
    (hflat : value.depth = 0) (hrest : Closed rest) :
    (readScalar (text ++ rest)).toOption = value.value?.map (·, rest) := by
  cases value with
  | null =>
    obtain rfl : text = ['n', 'u', 'l', 'l'] := h
    have hword := readWord_append Json.null ['u', 'l', 'l'] rest
    exact congrArg Except.toOption hword
  | boolean b =>
    cases b with
    | true =>
      obtain rfl : text = ['t', 'r', 'u', 'e'] := h
      have hword := readWord_append (Json.boolean true) ['r', 'u', 'e'] rest
      exact congrArg Except.toOption hword
    | false =>
      obtain rfl : text = ['f', 'a', 'l', 's', 'e'] := h
      have hword := readWord_append (Json.boolean false) ['a', 'l', 's', 'e'] rest
      exact congrArg Except.toOption hword
  | number literal =>
    obtain rfl : text = literal.chars := h
    rw [readScalar_number literal hrest, Written.value?, Option.map_map]
    rfl
  | string pieces =>
    obtain rfl : text = quoted pieces := h
    have hread := readText_quoted pieces rest
    rw [Written.value?, Option.map_map]
    refine (toOption_map _ _).trans ((congrArg _ hread).trans ?_)
    rw [Option.map_map]
    rfl
  | array items => exact absurd hflat (Nat.succ_ne_zero _)
  | object members => exact absurd hflat (Nat.succ_ne_zero _)

/-! ### Values -/

/-- The value that is written, unless brackets nest deeper than there are levels. -/
def Written.within (room : Nat) (value : Written) : Option Json :=
  if value.depth ≤ room then value.value? else none

theorem Written.within_eq_some_iff {room : Nat} {value : Written} {v : Json} :
    value.within room = some v ↔ value.depth ≤ room ∧ value.value? = some v := by
  rw [within, Option.ite_none_right_eq_some]

/-- Items are gathered with the last one in front. -/
theorem foldlM_items_eq_some_iff {room : Nat} {items : List Written} {start all : List Json} :
    items.foldlM (fun vs item => (item.within room).map (· :: vs)) start = some all ↔
      Written.depthItems items ≤ room ∧
        ∃ vs, Written.items? items = some vs ∧ vs.reverse ++ start = all := by
  induction items generalizing start with
  | nil =>
    constructor
    · intro hfold
      obtain rfl := Option.some.inj hfold
      exact ⟨Nat.zero_le _, [], rfl, rfl⟩
    · rintro ⟨-, vs, hvs, rfl⟩
      obtain rfl := Option.some.inj hvs
      rfl
  | cons item items ih =>
    rw [List.foldlM_cons, Option.bind_eq_bind, Option.bind_eq_some_iff]
    simp only [Option.map_eq_some_iff, Written.within_eq_some_iff, ih,
      Written.items?_cons_eq_some_iff, Written.depthItems, Nat.max_le]
    constructor
    · rintro ⟨_, ⟨v, ⟨hdepth, hv⟩, rfl⟩, hdepths, vs, hvs, rfl⟩
      refine ⟨⟨hdepth, hdepths⟩, _, ⟨v, vs, hv, hvs, rfl⟩, ?_⟩
      rw [List.reverse_cons, List.append_assoc, List.singleton_append]
    · rintro ⟨⟨hdepth, hdepths⟩, _, ⟨v, vs, hv, hvs, rfl⟩, rfl⟩
      refine ⟨_, ⟨v, ⟨hdepth, hv⟩, rfl⟩, hdepths, vs, hvs, ?_⟩
      rw [List.reverse_cons, List.append_assoc, List.singleton_append]

/-- Members are gathered with the last one in front. -/
theorem foldlM_members_eq_some_iff {room : Nat} {members : List (List Piece × Written)}
    {start all : List (String × Json)} :
    members.foldlM
        (decodeMember fun vs key value => (value.within room).map fun v => (key, v) :: vs) start =
        some all ↔
      Written.depthMembers members ≤ room ∧
        ∃ vs, Written.members? members = some vs ∧ vs.reverse ++ start = all := by
  induction members generalizing start with
  | nil =>
    constructor
    · intro hfold
      obtain rfl := Option.some.inj hfold
      exact ⟨Nat.zero_le _, [], rfl, rfl⟩
    · rintro ⟨-, vs, hvs, rfl⟩
      obtain rfl := Option.some.inj hvs
      rfl
  | cons member members ih =>
    obtain ⟨key, value⟩ := member
    rw [List.foldlM_cons, Option.bind_eq_bind, Option.bind_eq_some_iff]
    simp only [decodeMember, Option.bind_eq_some_iff, Option.map_eq_some_iff,
      Written.within_eq_some_iff, ih, Written.members?_cons_eq_some_iff, Written.depthMembers,
      Nat.max_le]
    constructor
    · rintro ⟨_, ⟨word, hword, v, ⟨hdepth, hv⟩, rfl⟩, hdepths, vs, hvs, rfl⟩
      refine ⟨⟨hdepth, hdepths⟩, _, ⟨word, v, vs, hword, hv, hvs, rfl⟩, ?_⟩
      rw [List.reverse_cons, List.append_assoc, List.singleton_append]
    · rintro ⟨⟨hdepth, hdepths⟩, _, ⟨word, v, vs, hword, hv, hvs, rfl⟩, rfl⟩
      refine ⟨_, ⟨word, hword, v, ⟨hdepth, hv⟩, rfl⟩, hdepths, vs, hvs, ?_⟩
      rw [List.reverse_cons, List.append_assoc, List.singleton_append]

theorem within_array (room : Nat) (items : List Written) :
    (Written.array items).within (room + 1) =
      (items.foldlM (fun vs (item : Written) => (item.within room).map (· :: vs)) []).map
        fun vs => .array vs.reverse := by
  refine Option.ext fun v => ?_
  simp only [Written.within_eq_some_iff, Option.map_eq_some_iff, foldlM_items_eq_some_iff,
    Written.depth, Written.value?, Nat.add_le_add_iff_right, List.append_nil]
  constructor
  · rintro ⟨hdepth, vs, hvs, rfl⟩
    exact ⟨_, ⟨hdepth, vs, hvs, rfl⟩, by rw [List.reverse_reverse]⟩
  · rintro ⟨_, ⟨hdepth, vs, hvs, rfl⟩, rfl⟩
    exact ⟨hdepth, vs, hvs, by rw [List.reverse_reverse]⟩

theorem within_object (room : Nat) (members : List (List Piece × Written)) :
    (Written.object members).within (room + 1) =
      (members.foldlM
        (decodeMember fun vs key value => (value.within room).map fun v => (key, v) :: vs) []).map
        fun vs => .object vs.reverse := by
  refine Option.ext fun v => ?_
  simp only [Written.within_eq_some_iff, Option.map_eq_some_iff, foldlM_members_eq_some_iff,
    Written.depth, Written.value?, Nat.add_le_add_iff_right, List.append_nil]
  constructor
  · rintro ⟨hdepth, vs, hvs, rfl⟩
    exact ⟨_, ⟨hdepth, vs, hvs, rfl⟩, by rw [List.reverse_reverse]⟩
  · rintro ⟨_, ⟨hdepth, vs, hvs, rfl⟩, rfl⟩
    exact ⟨hdepth, vs, hvs, by rw [List.reverse_reverse]⟩

theorem DecodesClosed.map {α β : Type} {read : Reader α} {decode : Written → Option α}
    (h : DecodesClosed read decode) (f : α → β) :
    DecodesClosed (fun cs => (read cs).map fun (a, rest) => (f a, rest))
      (fun value => (decode value).map f) := by
  intro value lead text rest hlead hspells hrest
  rw [toOption_map, h value lead text rest hlead hspells hrest, Option.map_map, Option.map_map]
  rfl

/-- A member is read as its value is, behind the colon. -/
theorem readColon_closed {σ : Type} {read : σ → String → Reader σ}
    {decode : σ → String → Written → Option σ}
    (h : ∀ state key, DecodesClosed (read state key) (decode state key)) :
    DecodesMemberClosed
      (fun state key cs =>
        match readColon cs with
        | .error halt => .error halt
        | .ok cs => read state key cs)
      decode := by
  intro state key value between after text rest hbetween hafter hspells hrest
  simp only [readColon_lead hbetween]
  exact h state key value after text rest hafter hspells hrest

theorem readValue_flat {value : Written} {lead text : List Char} (room : Nat)
    (hflat : value.depth = 0) (hlead : Blank lead) (hspells : value.Spells text)
    (rest : List Char) :
    readValue room (lead ++ (text ++ rest)) = ofForm (readScalar (text ++ rest)) := by
  obtain ⟨c, more, rfl, hc⟩ := hspells.begins
  have hskip : skipBlanks (lead ++ c :: (more ++ rest)) = c :: (more ++ rest) :=
    skipBlanks_value hlead hc _
  rw [readValue.eq_def, List.cons_append]
  dsimp only
  rw [hskip]
  split
  · rename_i heq
    obtain ⟨rfl, -⟩ := List.cons.inj heq
    obtain ⟨items, rfl⟩ := hc.array_of
    exact absurd hflat (Nat.succ_ne_zero _)
  · rename_i heq
    obtain ⟨rfl, -⟩ := List.cons.inj heq
    obtain ⟨members, rfl⟩ := hc.object_of
    exact absurd hflat (Nat.succ_ne_zero _)
  · rfl

theorem readValue_flat_toOption {value : Written} {lead text : List Char} (room : Nat)
    (hflat : value.depth = 0) (hlead : Blank lead) (hspells : value.Spells text)
    (hrest : Closed rest) :
    (readValue room (lead ++ (text ++ rest))).toOption = (value.within room).map (·, rest) := by
  have hroom : value.depth ≤ room := hflat ▸ Nat.zero_le room
  rw [readValue_flat room hflat hlead hspells, toOption_ofForm,
    readScalar_closed hspells hflat hrest, Written.within, if_pos hroom]

theorem readValue_array (room : Nat) {lead : List Char} (hlead : Blank lead) (cs : List Char) :
    readValue (room + 1) (lead ++ '[' :: cs) =
      (readArray (fun items cs => (readValue room cs).map fun (item, cs) => (item :: items, cs))
        [] cs).map fun (items, rest) => (.array items.reverse, rest) := by
  rw [readValue.eq_def]
  dsimp only
  rw [skipBlanks_lead hlead (by decide)]
  rfl

theorem readValue_object (room : Nat) {lead : List Char} (hlead : Blank lead) (cs : List Char) :
    readValue (room + 1) (lead ++ '\x7b' :: cs) =
      (readObject
        (fun members key cs =>
          match readColon cs with
          | .error halt => .error halt
          | .ok cs => (readValue room cs).map fun (value, cs) => ((key, value) :: members, cs))
        [] cs).map fun (members, rest) => (.object members.reverse, rest) := by
  rw [readValue.eq_def]
  dsimp only
  rw [skipBlanks_lead hlead (by decide)]
  rfl

theorem readValue_zero {lead : List Char} (hlead : Blank lead) {c : Char}
    (hc : c = '[' ∨ c = '\x7b') (cs : List Char) :
    readValue 0 (lead ++ c :: cs) = malformed (.before .tooDeep cs) := by
  rw [readValue.eq_def]
  dsimp only
  rcases hc with rfl | rfl
  · rw [skipBlanks_lead hlead (by decide)]
    rfl
  · rw [skipBlanks_lead hlead (by decide)]
    rfl

/-- A plain value is read as it is written where brackets nest at most as deep as there are
levels. -/
theorem readValue_decodes (room : Nat) : DecodesClosed (readValue room) (Written.within room) := by
  induction room with
  | zero =>
    intro value lead text rest hlead hspells hrest
    cases value with
    | array items =>
      obtain ⟨inner, rfl, -⟩ := hspells
      rw [List.cons_append, readValue_zero hlead (.inl rfl)]
      rfl
    | object members =>
      obtain ⟨inner, rfl, -⟩ := hspells
      rw [List.cons_append, readValue_zero hlead (.inr rfl)]
      rfl
    | null | boolean | number | string => exact readValue_flat_toOption 0 rfl hlead hspells hrest
  | succ room ih =>
    intro value lead text rest hlead hspells hrest
    cases value with
    | array items =>
      obtain ⟨inner, rfl, hitems⟩ := hspells
      have hstep := fun vs : List Json => ih.map (· :: vs)
      rw [List.cons_append, List.append_assoc, readValue_array room hlead, toOption_map,
        List.singleton_append, readArray_closed hstep hitems, within_array, Option.map_map,
        Option.map_map]
      rfl
    | object members =>
      obtain ⟨inner, rfl, hmembers⟩ := hspells
      have hstep := readColon_closed fun (vs : List (String × Json)) key =>
        ih.map fun v => (key, v) :: vs
      rw [List.cons_append, List.append_assoc, readValue_object room hlead, toOption_map,
        List.singleton_append, readObject_closed hstep hmembers, within_object, Option.map_map,
        Option.map_map]
      rfl
    | null | boolean | number | string =>
      exact readValue_flat_toOption (room + 1) rfl hlead hspells hrest

end Setters.Json

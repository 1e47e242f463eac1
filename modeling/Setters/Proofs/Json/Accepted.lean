import Setters.Proofs.Json.Reading

/-!
# Accepted texts are written values

The converse of reading written values: where a reader succeeds, it has taken off the text of some
value, as the grammar has it, and nothing else. `Takes` says so of a reader, and holds of every
step the readers are made of; `exists_isDocument_of_ok` is what follows for whole documents.
-/

namespace Setters.Json

variable {α β σ κ ε : Type} {cs rest text : List Char}

theorem exists_of_map_eq_ok {result : Except ε α} {f : α → β} {b : β} (h : result.map f = .ok b) :
    ∃ a, result = .ok a ∧ b = f a := by
  cases result with
  | error fault => cases h
  | ok a => exact ⟨a, rfl, (Except.ok.inj h).symm⟩

/-- A step that only changes the value leaves the same text behind it. -/
theorem exists_of_mapValue_eq_ok {result : Except ε (α × List Char)} {f : α → β} {b : β}
    (h : (result.map fun (a, rest) => (f a, rest)) = .ok (b, rest)) :
    ∃ a, result = .ok (a, rest) := by
  obtain ⟨⟨a, rest'⟩, hresult, heq⟩ := exists_of_map_eq_ok h
  obtain ⟨-, rfl⟩ := Prod.mk.inj heq
  exact ⟨a, hresult⟩

theorem eq_ok_of_ofForm {result : Except Flaw α} {a : α} (h : ofForm result = .ok a) :
    result = .ok a := by
  cases result with
  | error fault => cases h
  | ok b => exact congrArg _ (Except.ok.inj h)

theorem eq_of_ofContent {behind : List Char} {result : Except ContentFault α} {a : α}
    (h : ofContent behind result = .ok (a, rest)) : result = .ok a ∧ behind = rest := by
  cases result with
  | error fault => cases h
  | ok b =>
    obtain ⟨rfl, rfl⟩ := Prod.mk.inj (Except.ok.inj h)
    exact ⟨rfl, rfl⟩

theorem eq_ok_of_settle {reach : List Char → List Char} {result : Except Halt α} {a : α}
    (h : settle reach result = .ok a) : result = .ok a := by
  have hresult := congrArg Except.toOption h
  rw [toOption_settle] at hresult
  exact eq_ok_of_toOption hresult

theorem mismatch_ne_ok {wanted : Wanted} {a : α × List Char} :
    (mismatch wanted cs : Except Halt (α × List Char)) ≠ .ok a := by
  intro h
  have hnone := mismatch_toOption (α := α) wanted cs
  rw [h] at hnone
  cases hnone

theorem exists_blank (cs : List Char) : ∃ lead, Blank lead ∧ cs = lead ++ skipBlanks cs := by
  refine ⟨cs.takeWhile isBlank, fun c hc => ?_, (List.takeWhile_append_dropWhile).symm⟩
  exact List.all_eq_true.mp List.all_takeWhile c hc

theorem exists_blank_of_skipBlanks (h : skipBlanks cs = rest) :
    ∃ lead, Blank lead ∧ cs = lead ++ rest :=
  h ▸ exists_blank cs

/-! ### String literals -/

/-- What is left of a literal where its reader stands at a stage, up to the text after it. -/
def Stage.Closes : Stage → List Char → List Char → Prop
  | .plain, cs, rest | .half _, cs, rest => ∃ pieces, cs = pieceChars pieces ++ '"' :: rest
  | .escape, cs, rest | .halfEscape _, cs, rest =>
    ∃ pieces, '\\' :: cs = pieceChars pieces ++ '"' :: rest
  | .unit left _ _, cs, rest =>
    ∃ (digits : List HexDigit) (pieces : List Piece), digits.length = max left 1 ∧
      cs = digits.map HexDigit.letter ++ (pieceChars pieces ++ '"' :: rest)

theorem Stage.Closes.escaped {value : Nat} {leading : Option Nat}
    (h : (Stage.unit 4 value leading).Closes cs rest) :
    ∃ pieces, '\\' :: 'u' :: cs = pieceChars pieces ++ '"' :: rest := by
  obtain ⟨digits, pieces, hlength, rfl⟩ := h
  obtain ⟨first, second, third, fourth, rfl⟩ := List.length_eq_four.mp hlength
  exact ⟨.unit ⟨first, second, third, fourth⟩ :: pieces, rfl⟩

theorem closes_digit {left value digit : Nat} {leading : Option Nat} {c : Char}
    (hc : hexValue? c = some digit) (hleft : 1 < left)
    (h : (Stage.unit (left - 1) value leading).Closes cs rest) (value' : Nat) :
    (Stage.unit left value' leading).Closes (c :: cs) rest := by
  obtain ⟨digits, pieces, hlength, rfl⟩ := h
  refine ⟨⟨c, by rw [hc]; rfl⟩ :: digits, pieces, ?_, rfl⟩
  rw [List.length_cons, hlength]
  omega

theorem closes_lastDigit {left value digit : Nat} {leading : Option Nat} {c : Char}
    (hc : hexValue? c = some digit) (hleft : ¬1 < left)
    (h : ∃ pieces, cs = pieceChars pieces ++ '"' :: rest) :
    (Stage.unit left value leading).Closes (c :: cs) rest := by
  obtain ⟨pieces, rfl⟩ := h
  refine ⟨[⟨c, by rw [hc]; rfl⟩], pieces, ?_, rfl⟩
  rw [List.length_singleton]
  omega

/-- A literal that is read has the form of one from every stage on. -/
theorem closes_of_readLiteral {stage : Stage} (h : readLiteral stage cs = .ok (text, rest)) :
    stage.Closes cs rest := by
  fun_induction readLiteral stage cs generalizing text with
  | case1 | case4 | case8 | case9 | case10 | case12 | case16 | case18 | case20 => cases h
  | case2 =>
    obtain ⟨-, rfl⟩ := Prod.mk.inj (Except.ok.inj h)
    exact ⟨[], rfl⟩
  | case3 more hquote ih =>
    obtain ⟨pieces, hpieces⟩ := ih h
    exact ⟨pieces, hpieces⟩
  | case5 c more hquote hslash hcontrol ih =>
    obtain ⟨_, hmore⟩ := exists_of_mapValue_eq_ok h
    obtain ⟨pieces, rfl⟩ := ih hmore
    exact ⟨.plain c ⟨hquote, hslash, Nat.le_of_not_lt hcontrol⟩ :: pieces, rfl⟩
  | case6 c more d hshort ih =>
    obtain ⟨_, hmore⟩ := exists_of_mapValue_eq_ok h
    obtain ⟨pieces, rfl⟩ := ih hmore
    exact ⟨.short c (by rw [hshort]; rfl) :: pieces, rfl⟩
  | case7 more hshort ih => exact (ih h).escaped
  | case11 =>
    rename_i hc _ hleft ih
    exact closes_digit hc hleft (ih h) _
  | case13 =>
    rename_i hc _ hleft _ _ ih
    exact closes_lastDigit hc hleft (ih h)
  | case14 =>
    rename_i hc _ hleft _ _ ih
    obtain ⟨_, hmore⟩ := exists_of_mapValue_eq_ok h
    exact closes_lastDigit hc hleft (ih hmore)
  | case15 =>
    rename_i hc _ hleft _ _ ih
    obtain ⟨_, hmore⟩ := exists_of_mapValue_eq_ok h
    exact closes_lastDigit hc hleft (ih hmore)
  | case17 leading more ih =>
    obtain ⟨pieces, hpieces⟩ := ih h
    exact ⟨pieces, hpieces⟩
  | case19 leading more ih => exact (ih h).escaped

theorem exists_pieces_of_readText {s : String} (h : readText cs = .ok (s, rest)) :
    ∃ pieces, '"' :: cs = quoted pieces ++ rest := by
  obtain ⟨_, hread⟩ := exists_of_mapValue_eq_ok h
  obtain ⟨pieces, rfl⟩ := closes_of_readLiteral hread
  refine ⟨pieces, ?_⟩
  rw [quoted, List.cons_append, List.append_assoc]
  rfl

theorem eq_append_of_readWord {a b : α} {word : List Char}
    (h : readWord a word cs = .ok (b, rest)) : cs = word ++ rest := by
  induction word generalizing cs with
  | nil => rw [List.nil_append, (Prod.mk.inj (Except.ok.inj h)).2]
  | cons c word ih =>
    cases cs with
    | nil => cases h
    | cons d cs =>
      rw [readWord] at h
      split at h
      · rename_i hcd
        rw [hcd, ih h, List.cons_append]
      · cases h

/-! ### Values -/

/-- Whether a text is another one with a value before it. -/
def Ahead (cs rest : List Char) : Prop :=
  ∃ (lead : List Char) (value : Written) (text : List Char),
    cs = lead ++ (text ++ rest) ∧ Blank lead ∧ value.Spells text

theorem Ahead.of_skipBlanks (value : Written) (hskip : skipBlanks cs = text ++ rest)
    (h : value.Spells text) : Ahead cs rest := by
  obtain ⟨lead, hlead, rfl⟩ := exists_blank_of_skipBlanks hskip
  exact ⟨lead, value, text, rfl, hlead, h⟩

theorem Ahead.of_object {members : List (List Piece × Written)} {inner : List Char}
    (hskip : skipBlanks cs = '\x7b' :: (inner ++ '\x7d' :: rest))
    (h : Written.SpellsMembers true members inner) : Ahead cs rest := by
  have htext : skipBlanks cs = '\x7b' :: (inner ++ ['\x7d']) ++ rest := by
    rw [hskip, List.cons_append, List.append_assoc, List.singleton_append]
  have hspells : (Written.object members).Spells ('\x7b' :: (inner ++ ['\x7d'])) := ⟨inner, rfl, h⟩
  exact .of_skipBlanks _ htext hspells

theorem Ahead.of_array {items : List Written} {inner : List Char}
    (hskip : skipBlanks cs = '[' :: (inner ++ ']' :: rest))
    (h : Written.SpellsItems true items inner) : Ahead cs rest := by
  have htext : skipBlanks cs = '[' :: (inner ++ [']']) ++ rest := by
    rw [hskip, List.cons_append, List.append_assoc, List.singleton_append]
  have hspells : (Written.array items).Spells ('[' :: (inner ++ [']'])) := ⟨inner, rfl, h⟩
  exact .of_skipBlanks _ htext hspells

/-- Whether a reader that succeeds has taken off a value. -/
def Takes (read : Reader α) : Prop :=
  ∀ ⦃cs a rest⦄, read cs = .ok (a, rest) → Ahead cs rest

theorem Takes.map {read : Reader α} (h : Takes read) (f : α → β) :
    Takes fun cs => (read cs).map fun (a, rest) => (f a, rest) := by
  intro cs b rest hread
  obtain ⟨a, ha⟩ := exists_of_mapValue_eq_ok hread
  exact h ha

/-- A reader that fails wherever another one does, and leaves the same text behind. -/
theorem Takes.check {read : Reader α} (h : Takes read) {checked : Reader β}
    (hchecked : ∀ ⦃cs b rest⦄, checked cs = .ok (b, rest) → ∃ a, read cs = .ok (a, rest)) :
    Takes checked := by
  intro cs b rest hread
  obtain ⟨a, ha⟩ := hchecked hread
  exact h ha

theorem readString_takes (wanted : Wanted) : Takes (readString wanted) := by
  intro cs a rest h
  rw [readString] at h
  split at h
  · rename_i more hskip
    obtain ⟨pieces, hpieces⟩ := exists_pieces_of_readText (eq_ok_of_ofForm h)
    exact .of_skipBlanks (.string pieces) (hskip.trans hpieces) rfl
  · exact absurd h mismatch_ne_ok

theorem cons_eq_of_readWord_null {a b : α}
    (h : ofForm (readWord a ['u', 'l', 'l'] cs) = .ok (b, rest)) :
    'n' :: cs = ['n', 'u', 'l', 'l'] ++ rest := by
  rw [eq_append_of_readWord (eq_ok_of_ofForm h)]
  rfl

theorem Takes.orNull {read : Reader α} (h : Takes read) : Takes (readOption read) := by
  intro cs a rest hread
  rw [readOption] at hread
  split at hread
  · rename_i more hskip
    have hfront := hskip.trans (cons_eq_of_readWord_null hread)
    exact .of_skipBlanks .null hfront rfl
  · obtain ⟨lead, hlead, hcs⟩ := exists_blank cs
    obtain ⟨_, hmore⟩ := exists_of_mapValue_eq_ok hread
    obtain ⟨lead', value, text, hskip, hlead', hvalue⟩ := h hmore
    refine ⟨lead ++ lead', value, text, by rw [hcs, hskip, List.append_assoc], ?_, hvalue⟩
    exact List.forall_mem_append.mpr ⟨hlead, hlead'⟩

/-! ### Objects -/

theorem exists_blank_of_readColon (h : readColon cs = .ok rest) :
    ∃ between, Blank between ∧ cs = between ++ ':' :: rest := by
  rw [readColon] at h
  split at h
  · rename_i hskip
    obtain rfl := Except.ok.inj h
    exact exists_blank_of_skipBlanks hskip
  · cases h
  · cases h

theorem exists_of_nextKey_none {first : Bool} (h : nextKey first cs = .ok (none, rest)) :
    ∃ inner, Blank inner ∧ cs = inner ++ '\x7d' :: rest := by
  rw [nextKey] at h
  split at h
  · cases h
  · rename_i hskip
    obtain ⟨-, rfl⟩ := Prod.mk.inj (Except.ok.inj h)
    exact exists_blank_of_skipBlanks hskip
  · exfalso
    split at h
    · split at h
      · obtain ⟨_, -, heq⟩ := exists_of_map_eq_ok h
        cases (Prod.mk.inj heq).1
      · cases h
    · split at h
      · split at h
        · cases h
        · cases h
        · obtain ⟨_, -, heq⟩ := exists_of_map_eq_ok h
          cases (Prod.mk.inj heq).1
        · cases h
      · cases h

theorem exists_of_nextKey_some {first : Bool} {word : String}
    (h : nextKey first cs = .ok (some word, rest)) :
    ∃ lead key, Lead first lead ∧ cs = lead ++ (quoted key ++ rest) := by
  rw [nextKey] at h
  split at h
  · cases h
  · cases (Prod.mk.inj (Except.ok.inj h)).1
  · rename_i hskip
    obtain ⟨before, hbefore, hcs⟩ := exists_blank_of_skipBlanks hskip
    split at h
    · rename_i hfirst
      split at h
      · rename_i hquote
        obtain ⟨_, hread⟩ := exists_of_mapValue_eq_ok h
        obtain ⟨key, hkey⟩ := exists_pieces_of_readText (eq_ok_of_ofForm hread)
        subst hfirst hquote
        exact ⟨before, key, hbefore, by rw [hcs, hkey]⟩
      · cases h
    · rename_i hfirst
      split at h
      · rename_i hcomma
        subst hcomma
        split at h
        · cases h
        · cases h
        · rename_i hskip'
          obtain ⟨_, hread⟩ := exists_of_mapValue_eq_ok h
          obtain ⟨key, hkey⟩ := exists_pieces_of_readText (eq_ok_of_ofForm hread)
          obtain ⟨after, hafter, hmore⟩ := exists_blank_of_skipBlanks hskip'
          rw [Bool.not_eq_true] at hfirst
          subst hfirst
          refine ⟨before ++ ',' :: after, key, ⟨before, after, rfl, hbefore, hafter⟩, ?_⟩
          rw [hcs, hmore, hkey, List.append_assoc, List.cons_append]
        · cases h
      · cases h

/-- Whether a step that succeeds has taken off the colon and the value of a member. -/
def TakesMember (step : Reader σ) : Prop :=
  ∀ ⦃cs a rest⦄, step cs = .ok (a, rest) →
    ∃ between more, cs = between ++ ':' :: more ∧ Blank between ∧ Ahead more rest

theorem readColon_takes {read : Reader σ} (h : Takes read) :
    TakesMember fun cs =>
      match readColon cs with
      | .error halt => .error halt
      | .ok cs => read cs := by
  intro cs a rest hread
  dsimp only at hread
  split at hread
  · cases hread
  · rename_i more hcolon
    obtain ⟨between, hbetween, rfl⟩ := exists_blank_of_readColon hcolon
    exact ⟨between, more, rfl, hbetween, h hread⟩

theorem exists_members_of_readMembers {step : σ → String → Reader σ}
    (h : ∀ state key, TakesMember (step state key))
    {fuel : Nat} {first : Bool} {state state' : σ}
    (hread : readMembers step fuel first state cs = .ok (state', rest)) :
    ∃ members inner, cs = inner ++ '\x7d' :: rest ∧ Written.SpellsMembers first members inner := by
  induction fuel generalizing first state cs with
  | zero => cases hread
  | succ fuel ih =>
    rw [readMembers] at hread
    split at hread
    · cases hread
    · rename_i hkey
      obtain ⟨-, rfl⟩ := Prod.mk.inj (Except.ok.inj hread)
      obtain ⟨inner, hinner, rfl⟩ := exists_of_nextKey_none hkey
      exact ⟨[], inner, rfl, hinner⟩
    · rename_i word more hkey
      split at hread
      · cases hread
      · rename_i hstep
        obtain ⟨lead, key, hlead, rfl⟩ := exists_of_nextKey_some hkey
        obtain ⟨between, _, rfl, hbetween, after, value, text, rfl, hafter, hvalue⟩ :=
          h state word hstep
        obtain ⟨members, inner, rfl, hmembers⟩ := ih hread
        refine ⟨(key, value) :: members, _, ?_, lead, between, after, text, inner, rfl, hlead,
          hbetween, hafter, hvalue, hmembers⟩
        simp only [List.append_assoc, List.cons_append]

theorem Ahead.of_readObject {step : σ → String → Reader σ} {more : List Char}
    (hskip : skipBlanks cs = '\x7b' :: more) (h : ∀ state key, TakesMember (step state key))
    {start state : σ} (hread : readObject step start more = .ok (state, rest)) : Ahead cs rest := by
  obtain ⟨members, inner, rfl, hmembers⟩ := exists_members_of_readMembers h hread
  exact .of_object hskip hmembers

/-! ### Rows -/

theorem exists_of_nextItem_false {first : Bool} (h : nextItem first cs = .ok (false, rest)) :
    ∃ inner, Blank inner ∧ cs = inner ++ ']' :: rest := by
  rw [nextItem] at h
  split at h
  · cases h
  · rename_i hskip
    obtain ⟨-, rfl⟩ := Prod.mk.inj (Except.ok.inj h)
    exact exists_blank_of_skipBlanks hskip
  · exfalso
    split at h
    · cases (Prod.mk.inj (Except.ok.inj h)).1
    · split at h
      · split at h
        · cases h
        · cases h
        · cases (Prod.mk.inj (Except.ok.inj h)).1
      · cases h

theorem exists_of_nextItem_true {first : Bool} (h : nextItem first cs = .ok (true, rest)) :
    ∃ lead, Lead first lead ∧ cs = lead ++ rest := by
  rw [nextItem] at h
  split at h
  · cases h
  · cases (Prod.mk.inj (Except.ok.inj h)).1
  · rename_i hskip
    obtain ⟨before, hbefore, hcs⟩ := exists_blank_of_skipBlanks hskip
    split at h
    · rename_i hfirst
      obtain ⟨-, rfl⟩ := Prod.mk.inj (Except.ok.inj h)
      subst hfirst
      exact ⟨before, hbefore, hcs⟩
    · rename_i hfirst
      split at h
      · rename_i hcomma
        subst hcomma
        split at h
        · cases h
        · cases h
        · obtain ⟨-, rfl⟩ := Prod.mk.inj (Except.ok.inj h)
          obtain ⟨after, hafter, hmore⟩ := exists_blank _
          rw [Bool.not_eq_true] at hfirst
          subst hfirst
          refine ⟨before ++ ',' :: after, ⟨before, after, rfl, hbefore, hafter⟩, ?_⟩
          rw [hcs, List.append_assoc, List.cons_append, ← hmore]
      · cases h

/-- An item that stands behind blanks of its own stands behind them and what leads it. -/
theorem Lead.append_blank {first : Bool} {lead blanks : List Char} (h : Lead first lead)
    (hblanks : Blank blanks) : Lead first (lead ++ blanks) := by
  cases first with
  | true => exact List.forall_mem_append.mpr ⟨h, hblanks⟩
  | false =>
    obtain ⟨before, after, rfl, hbefore, hafter⟩ := h
    refine ⟨before, after ++ blanks, by rw [List.append_assoc, List.cons_append], hbefore, ?_⟩
    exact List.forall_mem_append.mpr ⟨hafter, hblanks⟩

theorem exists_of_closeRow {state state' : σ} (h : closeRow state cs = .ok (state', rest)) :
    ∃ inner, Blank inner ∧ cs = inner ++ ']' :: rest := by
  rw [closeRow] at h
  split at h
  · cases h
  · rename_i hskip
    obtain ⟨-, rfl⟩ := Prod.mk.inj (Except.ok.inj h)
    exact exists_blank_of_skipBlanks hskip
  · split at h <;> cases h
  · cases h

theorem exists_items_of_readRow {step : σ → κ → Reader σ} (h : ∀ state key, Takes (step state key))
    {short : Nat → σ → Except ContentFault σ} {keys : List κ} {count : Nat} {state state' : σ}
    (hread : readRow step short keys count state cs = .ok (state', rest)) :
    ∃ items inner, cs = inner ++ ']' :: rest ∧
      Written.SpellsItems (count == 0) items inner := by
  induction keys generalizing count state cs with
  | nil =>
    obtain ⟨inner, hinner, rfl⟩ := exists_of_closeRow hread
    exact ⟨[], inner, rfl, hinner⟩
  | cons key keys ih =>
    rw [readRow] at hread
    split at hread
    · cases hread
    · rename_i hitem
      obtain ⟨-, rfl⟩ := eq_of_ofContent (eq_ok_of_settle hread)
      obtain ⟨inner, hinner, rfl⟩ := exists_of_nextItem_false hitem
      exact ⟨[], inner, rfl, hinner⟩
    · rename_i hitem
      split at hread
      · cases hread
      · rename_i hstep
        obtain ⟨lead, hlead, rfl⟩ := exists_of_nextItem_true hitem
        obtain ⟨blanks, value, text, rfl, hblanks, hvalue⟩ := h state key hstep
        obtain ⟨items, inner, rfl, hitems⟩ := ih hread
        refine ⟨value :: items, _, ?_, lead ++ blanks, text, inner, rfl,
          hlead.append_blank hblanks, hvalue, hitems⟩
        simp only [List.append_assoc]

theorem Ahead.of_readRow {step : σ → κ → Reader σ} {more : List Char}
    (hskip : skipBlanks cs = '[' :: more) (h : ∀ state key, Takes (step state key))
    {short : Nat → σ → Except ContentFault σ} {keys : List κ} {start state : σ}
    (hread : readRow step short keys 0 start more = .ok (state, rest)) : Ahead cs rest := by
  obtain ⟨items, inner, rfl, hitems⟩ := exists_items_of_readRow h hread
  exact .of_array hskip hitems

/-! ### Documents -/

theorem exists_isDocument_of_ok {read : Nat → Reader α} (h : Takes (read maxDepth))
    {document : String} {a : α} (hread : readDocument read document = .ok a) :
    ∃ value : Written, value.IsDocument document := by
  rw [readDocument] at hread
  split at hread
  · cases hread
  · rename_i after hvalue
    obtain ⟨before, value, body, htext, hbefore, hspells⟩ := h hvalue
    split at hread
    · rename_i hempty
      obtain ⟨blanks, hblanks, hafter⟩ := exists_blank after
      have hend : skipBlanks after = [] := List.isEmpty_iff.mp hempty
      rw [hend, List.append_nil] at hafter
      subst hafter
      exact ⟨value, before, body, after, htext, hbefore, hblanks, hspells⟩
    · cases hread

end Setters.Json

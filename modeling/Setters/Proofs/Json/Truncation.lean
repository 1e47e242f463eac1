import Setters.Proofs.Json.Accepted
import Setters.Proofs.Json.Plain
import Setters.Proofs.Json.Printed

/-!
# Texts that end too early

What the readers make of a text that is cut off before its end: where the whole text is read, the
part of it is refused because it ends too early, wherever the cut is. `Cuts` says so of a reader
and the written values it takes, and holds of every step the readers are made of. So no other
fault is found before the end of the text is.

A number that is cut off is a number still, or out of range, so of plain values this is said
of those without numbers.
-/

namespace Setters.Json

variable {α β σ κ : Type} {p text : List Char}

/-! ### Cuts -/

/-- Whether a text is another one without its end. -/
def Cut (p text : List Char) : Prop :=
  ∃ q, q ≠ [] ∧ text = p ++ q

/-- Whether a text is refused because it ends too early. -/
def Truncated (outcome : Except Halt α) : Prop :=
  ∃ halt, outcome = .error halt ∧ halt.category = .truncation

theorem not_cut_nil : ¬Cut p [] := by
  rintro ⟨q, hq, h⟩
  exact hq (List.append_eq_nil_iff.mp h.symm).2

theorem Cut.cons {c : Char} {cs : List Char} (h : Cut p (c :: cs)) :
    p = [] ∨ ∃ p', p = c :: p' ∧ Cut p' cs := by
  obtain ⟨q, hq, heq⟩ := h
  cases p with
  | nil => exact .inl rfl
  | cons d p =>
    obtain ⟨rfl, htail⟩ := List.cons.inj heq
    exact .inr ⟨p, rfl, q, hq, htail⟩

/-- A cut is in the first of two parts or in the second. -/
theorem Cut.append {a b : List Char} (h : Cut p (a ++ b)) :
    Cut p a ∨ ∃ p', p = a ++ p' ∧ Cut p' b := by
  induction a generalizing p with
  | nil => exact .inr ⟨p, rfl, h⟩
  | cons c a ih =>
    rcases h.cons with rfl | ⟨p', rfl, hp'⟩
    · exact .inl ⟨c :: a, List.cons_ne_nil c a, rfl⟩
    · rcases ih hp' with ⟨q, hq, rfl⟩ | ⟨p'', rfl, hp''⟩
      · exact .inl ⟨q, hq, rfl⟩
      · exact .inr ⟨p'', rfl, hp''⟩

theorem Cut.blank (h : Cut p text) (hblank : Blank text) : Blank p := by
  obtain ⟨q, -, rfl⟩ := h
  exact fun c hc => hblank c (List.mem_append_left q hc)

theorem skipBlanks_blank (h : Blank p) : skipBlanks p = [] := by
  rw [← List.append_nil p, skipBlanks_append h]
  rfl

/-- A cut in front of the first token leaves blanks, and one behind it leaves the token. -/
theorem Cut.lead {lead cs : List Char} {c : Char} (h : Cut p (lead ++ c :: cs))
    (hlead : Blank lead) (hc : isBlank c = false) :
    skipBlanks p = [] ∨ ∃ p', skipBlanks p = c :: p' ∧ Cut p' cs := by
  rcases h.append with hp | ⟨p', rfl, hp'⟩
  · exact .inl (skipBlanks_blank (hp.blank hlead))
  · rcases hp'.cons with rfl | ⟨p'', rfl, hp''⟩
    · rw [List.append_nil]
      exact .inl (skipBlanks_blank hlead)
    · exact .inr ⟨p'', skipBlanks_lead hlead hc p'', hp''⟩

theorem Closed.cut (h : Closed text) (hp : Cut p text) : Closed p := by
  obtain ⟨q, -, rfl⟩ := hp
  cases p with
  | nil => exact closed_nil
  | cons c p => exact h

theorem Halt.category_fault (halt : Halt) (text : List Char) :
    (halt.fault text).category = halt.category := by
  cases halt <;> rfl

theorem Truncated.malformed {flaw : Flaw} (h : flaw.fault.isTruncation) :
    Truncated (malformed flaw : Except Halt α) :=
  ⟨.malformed flaw, rfl, if_pos h⟩

theorem Truncated.map {outcome : Except Halt α} (h : Truncated outcome) (f : α → β) :
    Truncated (outcome.map f) := by
  obtain ⟨halt, rfl, hhalt⟩ := h
  exact ⟨halt, rfl, hhalt⟩

/-- What ends too early does so whatever becomes of the faults without a place. -/
theorem Truncated.settle {outcome : Except Halt α} (h : Truncated outcome)
    (reach : List Char → List Char) : Truncated (settle reach outcome) := by
  obtain ⟨halt, rfl, hhalt⟩ := h
  cases halt with
  | malformed flaw => exact ⟨.malformed flaw, rfl, hhalt⟩
  | content fault left => cases hhalt
  | pending fault rest => cases hhalt

/-- What ends too early in its first step ends too early. -/
theorem Truncated.step {outcome : Except Halt α} {whole : Except Halt β} (h : Truncated outcome)
    (herror : ∀ halt, outcome = .error halt → whole = .error halt) : Truncated whole := by
  obtain ⟨halt, hhalt, htruncation⟩ := h
  exact ⟨halt, herror halt hhalt, htruncation⟩

/-! ### Literals and words -/

/-- Whether what is left of a literal at a stage ends too early wherever it is cut off. -/
def Stage.Cuts (stage : Stage) (cs rest : List Char) : Prop :=
  ∃ literal, cs = literal ++ rest ∧
    ∀ p, Cut p literal → readLiteral stage p = .error (.atEnd .endInString)

theorem Stage.Cuts.cons {stage stage' : Stage} {c : Char} {cs rest : List Char}
    (h : stage'.Cuts cs rest)
    (hstep : ∀ p, readLiteral stage' p = .error (.atEnd .endInString) →
      readLiteral stage (c :: p) = .error (.atEnd .endInString)) : stage.Cuts (c :: cs) rest := by
  obtain ⟨literal, rfl, hcut⟩ := h
  refine ⟨c :: literal, rfl, fun p hp => ?_⟩
  rcases hp.cons with rfl | ⟨p', rfl, hp'⟩
  · rw [readLiteral]
  · exact hstep p' (hcut p' hp')

/-- A literal that is cut off anywhere, also inside an escape or between two halves, ends too
early. -/
theorem cuts_of_readLiteral {stage : Stage} {cs rest t : List Char}
    (h : readLiteral stage cs = .ok (t, rest)) : stage.Cuts cs rest := by
  -- along the reader: a step that goes on does so with what is left of the cut, and fails with it
  fun_induction readLiteral stage cs generalizing t with
  | case1 | case4 | case8 | case9 | case10 | case12 | case16 | case18 | case20 => cases h
  | case2 =>
    obtain ⟨-, rfl⟩ := Prod.mk.inj (Except.ok.inj h)
    refine ⟨['"'], rfl, fun p hp => ?_⟩
    rcases hp.cons with rfl | ⟨_, -, hnil⟩
    · rw [readLiteral]
    · exact absurd hnil not_cut_nil
  | case3 more hquote ih =>
    exact (ih h).cons fun p hp => by rw [readLiteral, if_neg hquote, if_pos rfl, hp]
  | case5 c more hquote hslash hcontrol ih =>
    obtain ⟨_, hmore⟩ := exists_of_mapValue_eq_ok h
    refine (ih hmore).cons fun p hp => ?_
    rw [readLiteral, if_neg hquote, if_neg hslash, if_neg hcontrol, hp]
    rfl
  | case6 c more d hshort ih =>
    obtain ⟨_, hmore⟩ := exists_of_mapValue_eq_ok h
    refine (ih hmore).cons fun p hp => ?_
    simp only [readLiteral, hshort, hp]
    rfl
  | case7 more hshort ih =>
    refine (ih h).cons fun p hp => ?_
    simp only [readLiteral, hshort, hp, if_true]
  | case11 =>
    rename_i hc _ hleft ih
    refine (ih h).cons fun p hp => ?_
    simp only [readLiteral, hc]
    rw [if_pos hleft, hp]
  | case13 =>
    rename_i hc _ hleft htrailing hleading ih
    refine (ih h).cons fun p hp => ?_
    simp only [readLiteral, hc]
    rw [if_neg hleft, if_neg htrailing, if_pos hleading, hp]
  | case14 =>
    rename_i hc _ hleft htrailing hleading ih
    obtain ⟨_, hmore⟩ := exists_of_mapValue_eq_ok h
    refine (ih hmore).cons fun p hp => ?_
    simp only [readLiteral, hc]
    rw [if_neg hleft, if_neg htrailing, if_neg hleading, hp]
    rfl
  | case15 =>
    rename_i hc _ hleft _ htrailing ih
    obtain ⟨_, hmore⟩ := exists_of_mapValue_eq_ok h
    refine (ih hmore).cons fun p hp => ?_
    simp only [readLiteral, hc]
    rw [if_neg hleft, if_pos htrailing, hp]
    rfl
  | case17 leading more ih =>
    exact (ih h).cons fun p hp => by rw [readLiteral, if_pos rfl, hp]
  | case19 leading more ih =>
    exact (ih h).cons fun p hp => by rw [readLiteral, if_pos rfl, hp]

theorem readText_cut {pieces : List Piece} {word : String} (htext : textOf pieces = some word)
    (hp : Cut p (pieceChars pieces ++ ['"'])) : readText p = .error (.atEnd .endInString) := by
  have hread : readText (pieceChars pieces ++ ['"']) = .ok (word, []) :=
    eq_ok_of_toOption ((readText_pieces pieces []).trans (by rw [htext]; rfl))
  obtain ⟨t, hliteral⟩ := exists_of_mapValue_eq_ok hread
  obtain ⟨literal, heq, hcut⟩ := cuts_of_readLiteral hliteral
  rw [List.append_nil] at heq
  rw [readText, hcut p (heq ▸ hp)]
  rfl

theorem readWord_cut (a : α) {word : List Char} (hp : Cut p word) :
    readWord a word p = .error (.atEnd .endInValue) := by
  induction word generalizing p with
  | nil => exact absurd hp not_cut_nil
  | cons c word ih =>
    rcases hp.cons with rfl | ⟨p', rfl, hp'⟩
    · rfl
    · rw [readWord, if_pos rfl, ih hp']

/-! ### Readers -/

/-- Whether the texts of the values that a reader takes end too early for it wherever they are
cut off. -/
def Cuts (accepts : Written → Prop) (read : Reader α) : Prop :=
  ∀ value lead text p, Blank lead → value.Spells text → accepts value → Cut p (lead ++ text) →
    Truncated (read p)

variable {accepts accepts' : Written → Prop}

theorem Cuts.mono {read : Reader α} (h : Cuts accepts read)
    (himp : ∀ value, accepts' value → accepts value) : Cuts accepts' read :=
  fun value lead text p hlead hspells haccept hp =>
    h value lead text p hlead hspells (himp value haccept) hp

theorem Cuts.map {read : Reader α} (h : Cuts accepts read) (f : α → β) :
    Cuts accepts fun cs => (read cs).map fun (a, rest) => (f a, rest) :=
  fun value lead text p hlead hspells haccept hp =>
    (h value lead text p hlead hspells haccept hp).map _

theorem Cuts.gather {read : Reader α} {free : Written → Prop} {decode : Written → Option α}
    (h : Cuts (fun value => free value ∧ (decode value).isSome) read) (f : α → β) :
    Cuts (fun value => free value ∧ ((decode value).map f).isSome)
      fun cs => (read cs).map fun (a, rest) => (f a, rest) :=
  (h.map f).mono fun value haccept => by simpa using haccept

/-- What is checked after it is read is cut off where it is read. -/
theorem Cuts.check {read : Reader α} {checked : Reader β} (h : Cuts accepts read)
    (herror : ∀ cs halt, read cs = .error halt → checked cs = .error halt) :
    Cuts accepts checked :=
  fun value lead text p hlead hspells haccept hp =>
    (h value lead text p hlead hspells haccept hp).step (herror p)

theorem mismatch_nil (wanted : Wanted) :
    Truncated (mismatch wanted [] : Except Halt (α × List Char)) :=
  .malformed rfl

theorem truncated_ofForm {outcome : Except Flaw α} {flaw : Flaw} (h : outcome = .error flaw)
    (hflaw : flaw.fault.isTruncation) : Truncated (ofForm outcome) := by
  rw [h]
  exact .malformed hflaw

theorem readString_cuts (wanted : Wanted) :
    Cuts (fun value => value.text?.isSome) (readString wanted) := by
  intro value lead text p hlead hspells haccept hp
  cases value with
  | string pieces =>
    obtain ⟨word, hword⟩ := Option.isSome_iff_exists.mp haccept
    obtain rfl : text = quoted pieces := hspells
    unfold readString
    rcases hp.lead hlead (by decide) with hskip | ⟨p', hskip, hp'⟩
    · rw [hskip]
      exact mismatch_nil wanted
    · rw [hskip]
      exact truncated_ofForm (readText_cut hword hp') rfl
  | _ => cases haccept

theorem readNull_word {value : α} (hp : Cut p ['u', 'l', 'l']) :
    Truncated (ofForm (readWord value ['u', 'l', 'l'] p)) :=
  truncated_ofForm (readWord_cut value hp) rfl

theorem Cuts.orNull {read : Reader α} (h : Cuts accepts read) (hend : Truncated (read [])) :
    Cuts (fun value => value = .null ∨ accepts value) (readOption read) := by
  intro value lead text p hlead hspells haccept hp
  obtain ⟨c, more, rfl, hc⟩ := hspells.begins
  unfold readOption
  rcases hp.lead hlead hc.not_blank with hskip | ⟨p', hskip, hp'⟩
  · rw [hskip]
    exact hend.map _
  · rw [hskip]
    by_cases hnull : c = 'n'
    · subst hnull
      obtain rfl := hc.null_of
      obtain rfl : more = ['u', 'l', 'l'] := (List.cons.inj hspells).2
      exact readNull_word hp'
    · have hvalue : accepts value := by
        refine haccept.resolve_left ?_
        rintro rfl
        exact hnull hc
      have hcut : Cut (c :: p') ([] ++ c :: more) := by
        obtain ⟨q, hq, rfl⟩ := hp'
        exact ⟨q, hq, rfl⟩
      have hread := h value [] (c :: more) (c :: p') blank_nil hspells hvalue hcut
      split
      · rename_i heq
        exact absurd (List.cons.inj heq).1 hnull
      · exact hread.map _

theorem isSome_orNull {decode : Written → Option α} {value : Written}
    (h : (Written.orNull decode value).isSome) : value = .null ∨ (decode value).isSome := by
  cases value <;> first | exact .inl rfl | (exact .inr (by simpa [Written.orNull] using h))

/-! ### Objects -/

/-- Whether the texts of colon and value end too early for a step wherever they are cut off. -/
def CutsMember (accepts : Written → Prop) (step : Reader σ) : Prop :=
  ∀ value between after text p, Blank between → Blank after → value.Spells text →
    accepts value → Cut p (between ++ ':' :: (after ++ text)) → Truncated (step p)

theorem readColon_cuts {read : Reader σ} (h : Cuts accepts read) :
    CutsMember accepts fun cs =>
      match readColon cs with
      | .error halt => .error halt
      | .ok cs => read cs := by
  intro value between after text p hbetween hafter hspells haccept hp
  unfold readColon
  rcases hp.lead hbetween (by decide) with hskip | ⟨p', hskip, hp'⟩
  · simp only [hskip]
    exact .malformed rfl
  · simp only [hskip]
    exact h value after text p' hafter hspells haccept hp'

theorem nextKey_cut {first : Bool} {lead : List Char} {key : List Piece} {word : String}
    (hlead : Lead first lead) (hkey : textOf key = some word) (hp : Cut p (lead ++ quoted key)) :
    Truncated (nextKey first p) := by
  cases first with
  | true =>
    unfold nextKey
    rcases hp.lead hlead (by decide) with hskip | ⟨p', hskip, hp'⟩
    · rw [hskip]
      exact .malformed rfl
    · rw [hskip]
      exact (truncated_ofForm (readText_cut hkey hp') rfl).map _
  | false =>
    obtain ⟨before, after, rfl, hbefore, hafter⟩ := hlead
    rw [List.append_assoc, List.cons_append] at hp
    rcases hp.lead hbefore (by decide) with hskip | ⟨p', hskip, hp'⟩
    · rw [nextKey, hskip]
      exact .malformed rfl
    · rcases hp'.lead hafter (by decide) with hskip' | ⟨p'', hskip', hp''⟩
      · have hnext : nextKey false p = malformed (.atEnd .endInValue) := by
          rw [nextKey, hskip]
          simp [hskip']
        rw [hnext]
        exact .malformed rfl
      · have hnext : nextKey false p =
            (ofForm (readText p'')).map fun read => (some read.1, read.2) := by
          rw [nextKey, hskip]
          simp [hskip']
        rw [hnext]
        exact (truncated_ofForm (readText_cut hkey hp'') rfl).map _

variable {free : Written → Prop}

theorem exists_of_foldlM_member {decode : σ → String → Written → Option σ} {key : List Piece}
    {value : Written} {members : List (List Piece × Written)} {state : σ}
    (h : (((key, value) :: members).foldlM (decodeMember decode) state).isSome) :
    ∃ word state', textOf key = some word ∧ decode state word value = some state' ∧
      (members.foldlM (decodeMember decode) state').isSome := by
  obtain ⟨final, hfinal⟩ := Option.isSome_iff_exists.mp h
  rw [List.foldlM_cons, Option.bind_eq_bind, Option.bind_eq_some_iff] at hfinal
  obtain ⟨state', hmember, hrest⟩ := hfinal
  obtain ⟨word, hkey, hstate⟩ := Option.bind_eq_some_iff.mp hmember
  exact ⟨word, state', hkey, hstate, Option.isSome_iff_exists.mpr ⟨final, hrest⟩⟩

/-- Members that are cut off end too early, whatever their number is bounded by. -/
theorem readMembers_cut {step : σ → String → Reader σ} {decode : σ → String → Written → Option σ}
    (hstep : DecodesMemberClosed step decode)
    (hcut : ∀ state key,
      CutsMember (fun value => free value ∧ (decode state key value).isSome) (step state key))
    {members : List (List Piece × Written)} {first : Bool} {inner : List Char}
    (h : Written.SpellsMembers first members inner) (hfree : ∀ member ∈ members, free member.2)
    {state : σ} (hfold : (members.foldlM (decodeMember decode) state).isSome) (fuel : Nat)
    (hp : Cut p (inner ++ ['\x7d'])) : Truncated (readMembers step fuel first state p) := by
  induction members generalizing first inner fuel state p with
  | nil =>
    cases fuel with
    | zero => exact .malformed rfl
    | succ fuel =>
      rcases hp.lead h (by decide) with hskip | ⟨_, -, hnil⟩
      · rw [readMembers, nextKey, hskip]
        exact .malformed rfl
      · exact absurd hnil not_cut_nil
  | cons member members ih =>
    obtain ⟨key, value⟩ := member
    obtain ⟨lead, between, after, text, more, rfl, hlead, hbetween, hafter, hvalue, hmore⟩ := h
    obtain ⟨hfirst, hlater⟩ := List.forall_mem_cons.mp hfree
    obtain ⟨word, state', hkey, hstate, hrest⟩ := exists_of_foldlM_member hfold
    cases fuel with
    | zero => exact .malformed rfl
    | succ fuel =>
      -- the cut is in the key, in the colon with the value, or in what comes after them
      have htext : lead ++ (quoted key ++ (between ++ ':' :: (after ++ (text ++ more)))) ++
          ['\x7d'] = (lead ++ quoted key) ++ ((between ++ ':' :: (after ++ text)) ++
            (more ++ ['\x7d'])) := by
        simp
      rw [htext] at hp
      rw [readMembers]
      rcases hp.append with hp' | ⟨p', rfl, hp'⟩
      · exact (nextKey_cut hlead hkey hp').step fun halt hhalt => by simp only [hhalt]
      · have hquoted := nextKey_quoted hlead key p'
        rw [hkey, ← List.append_assoc] at hquoted
        have hread : nextKey first (lead ++ quoted key ++ p') = .ok (some word, p') :=
          eq_ok_of_toOption hquoted
        rw [hread]
        rcases hp'.append with hp'' | ⟨p'', rfl, hp''⟩
        · have haccept : free value ∧ (decode state word value).isSome :=
            ⟨hfirst, by rw [hstate]; rfl⟩
          have hmember :=
            hcut state word value between after text p' hbetween hafter hvalue haccept hp''
          exact hmember.step fun halt hhalt => by simp only [hhalt]
        · have hmember := hstep state word value between after text p'' hbetween hafter hvalue
            ((hmore.closed []).cut hp'')
          rw [hstate] at hmember
          have hdone := eq_ok_of_toOption hmember
          simp only [List.append_assoc, List.cons_append, hdone]
          exact ih hmore hlater hrest fuel hp''

theorem readObject_cut {step : σ → String → Reader σ} {decode : σ → String → Written → Option σ}
    (hstep : DecodesMemberClosed step decode)
    (hcut : ∀ state key,
      CutsMember (fun value => free value ∧ (decode state key value).isSome) (step state key))
    {members : List (List Piece × Written)} {inner : List Char}
    (h : Written.SpellsMembers true members inner) (hfree : ∀ member ∈ members, free member.2)
    {start : σ} (hfold : (members.foldlM (decodeMember decode) start).isSome)
    (hp : Cut p (inner ++ ['\x7d'])) : Truncated (readObject step start p) :=
  readMembers_cut hstep hcut h hfree hfold _ hp

theorem CutsMember.mono {step : Reader σ} (h : CutsMember accepts step)
    (himp : ∀ value, accepts' value → accepts value) : CutsMember accepts' step :=
  fun value between after text p hbetween hafter hspells haccept hp =>
    h value between after text p hbetween hafter hspells (himp value haccept) hp

/-- The same for steps that take members of all kinds. -/
theorem readObject_cut_of_any {step : σ → String → Reader σ}
    {decode : σ → String → Written → Option σ} (hstep : DecodesMember step decode)
    (hcut : ∀ state key,
      CutsMember (fun value => (decode state key value).isSome) (step state key))
    {members : List (List Piece × Written)} {inner : List Char}
    (h : Written.SpellsMembers true members inner) {start : σ}
    (hfold : (members.foldlM (decodeMember decode) start).isSome)
    (hp : Cut p (inner ++ ['\x7d'])) : Truncated (readObject step start p) := by
  have hcut' : ∀ state key,
      CutsMember (fun value => True ∧ (decode state key value).isSome) (step state key) :=
    fun state key => (hcut state key).mono fun _ => And.right
  exact readObject_cut hstep.closed hcut' h (fun _ _ => trivial) hfold hp

/-! ### Arrays -/

theorem nextItem_cut {first : Bool} {lead : List Char} {c : Char} (hlead : Lead first lead)
    (hc : isBlank c = false) (hp : Cut p (lead ++ [c])) : Truncated (nextItem first p) := by
  cases first with
  | true =>
    rcases hp.lead hlead hc with hskip | ⟨_, -, hnil⟩
    · rw [nextItem, hskip]
      exact .malformed rfl
    · exact absurd hnil not_cut_nil
  | false =>
    obtain ⟨before, after, rfl, hbefore, hafter⟩ := hlead
    rw [List.append_assoc, List.cons_append] at hp
    rcases hp.lead hbefore (by decide) with hskip | ⟨p', hskip, hp'⟩
    · rw [nextItem, hskip]
      exact .malformed rfl
    · rcases hp'.lead hafter hc with hskip' | ⟨_, -, hnil⟩
      · have hnext : nextItem false p = malformed (.atEnd .endInValue) := by
          rw [nextItem, hskip]
          simp [hskip']
        rw [hnext]
        exact .malformed rfl
      · exact absurd hnil not_cut_nil

theorem nextItem_blank {first : Bool} (h : skipBlanks p = []) : Truncated (nextItem first p) := by
  rw [nextItem, h]
  exact .malformed rfl

/-- A cut in front of an item is found before the item is read. -/
theorem nextItem_cases {first : Bool} {lead text more : List Char} {value : Written}
    (hlead : Lead first lead) (hspells : value.Spells text) (hp : Cut p (lead ++ (text ++ more))) :
    Truncated (nextItem first p) ∨
      ∃ p', nextItem first p = .ok (true, p') ∧
        (Cut p' text ∨ ∃ p'', p' = text ++ p'' ∧ Cut p'' more) := by
  obtain ⟨c, tail, rfl, hc⟩ := hspells.begins
  have htext : lead ++ (c :: tail ++ more) = (lead ++ [c]) ++ (tail ++ more) := by simp
  rw [htext] at hp
  rcases hp.append with hp' | ⟨p', rfl, hp'⟩
  · exact .inl (nextItem_cut hlead hc.not_blank hp')
  · have hread : nextItem first (lead ++ [c] ++ p') = .ok (true, c :: p') := by
      rw [List.append_assoc, List.singleton_append]
      exact nextItem_value hlead hc p'
    refine .inr ⟨c :: p', hread, ?_⟩
    rcases hp'.append with ⟨q, hq, rfl⟩ | ⟨p'', rfl, hp''⟩
    · exact .inl ⟨q, hq, rfl⟩
    · exact .inr ⟨p'', rfl, hp''⟩

theorem exists_of_foldlM_item {decode : σ → Written → Option σ} {item : Written}
    {items : List Written} {state : σ} (h : ((item :: items).foldlM decode state).isSome) :
    ∃ state', decode state item = some state' ∧ (items.foldlM decode state').isSome := by
  obtain ⟨final, hfinal⟩ := Option.isSome_iff_exists.mp h
  rw [List.foldlM_cons, Option.bind_eq_bind, Option.bind_eq_some_iff] at hfinal
  obtain ⟨state', hitem, hrest⟩ := hfinal
  exact ⟨state', hitem, Option.isSome_iff_exists.mpr ⟨final, hrest⟩⟩

/-- Items that are cut off end too early. -/
theorem readItems_cut {step : σ → Reader σ} {decode : σ → Written → Option σ}
    (hstep : ∀ state, DecodesClosed (step state) (decode state))
    (hcut : ∀ state, Cuts (fun value => free value ∧ (decode state value).isSome) (step state))
    {items : List Written} {first : Bool} {inner : List Char}
    (h : Written.SpellsItems first items inner) (hfree : ∀ item ∈ items, free item) {state : σ}
    (hfold : (items.foldlM decode state).isSome) (fuel : Nat) (hp : Cut p (inner ++ [']'])) :
    Truncated (readItems step fuel first state p) := by
  induction items generalizing first inner fuel state p with
  | nil =>
    cases fuel with
    | zero => exact .malformed rfl
    | succ fuel =>
      rcases hp.lead h (by decide) with hskip | ⟨_, -, hnil⟩
      · have hitem : Truncated (nextItem first p) := nextItem_blank hskip
        exact hitem.step fun halt hhalt => by rw [readItems, hhalt]
      · exact absurd hnil not_cut_nil
  | cons item items ih =>
    obtain ⟨lead, text, more, rfl, hlead, hspells, hmore⟩ := h
    obtain ⟨hfirst, hlater⟩ := List.forall_mem_cons.mp hfree
    obtain ⟨state', hstate, hrest⟩ := exists_of_foldlM_item hfold
    rw [List.append_assoc, List.append_assoc] at hp
    cases fuel with
    | zero => exact .malformed rfl
    | succ fuel =>
      rw [readItems]
      rcases nextItem_cases hlead hspells hp with hitem | ⟨_, hread, hp' | ⟨p', rfl, hp'⟩⟩
      · exact hitem.step fun halt hhalt => by simp only [hhalt]
      · have haccept : free item ∧ (decode state item).isSome := ⟨hfirst, by rw [hstate]; rfl⟩
        -- the lead is gone, as `nextItem` has skipped it
        have hitem := hcut state item [] text _ blank_nil hspells haccept hp'
        exact hitem.step fun halt hhalt => by simp only [hread, hhalt]
      · have hitem := hstep state item [] text p' blank_nil hspells ((hmore.closed []).cut hp')
        rw [hstate] at hitem
        have hdone := eq_ok_of_toOption hitem
        rw [List.nil_append] at hdone
        simp only [hread, hdone]
        exact ih hmore hlater hrest fuel hp'

theorem readArray_cut {step : σ → Reader σ} {decode : σ → Written → Option σ}
    (hstep : ∀ state, DecodesClosed (step state) (decode state))
    (hcut : ∀ state, Cuts (fun value => free value ∧ (decode state value).isSome) (step state))
    {items : List Written} {inner : List Char} (h : Written.SpellsItems true items inner)
    (hfree : ∀ item ∈ items, free item) {start : σ} (hfold : (items.foldlM decode start).isSome)
    (hp : Cut p (inner ++ [']'])) : Truncated (readArray step start p) :=
  readItems_cut hstep hcut h hfree hfold _ hp

/-- A row that is cut off ends too early. -/
theorem readRow_cut {step : σ → κ → Reader σ} {decode : σ → κ → Written → Option σ}
    (hstep : ∀ state key, Decodes (step state key) (decode state key))
    (hcut : ∀ state key, Cuts (fun value => (decode state key value).isSome) (step state key))
    (short : Nat → σ → Except ContentFault σ) {keys : List κ} {items : List Written}
    {count : Nat} {inner : List Char} (h : Written.SpellsItems (count == 0) items inner)
    {state : σ} (hrow : (decodeRow decode short keys count state items).isSome)
    (hp : Cut p (inner ++ [']'])) : Truncated (readRow step short keys count state p) := by
  induction keys generalizing items count inner state p with
  | nil =>
    cases items with
    | cons item items => cases hrow
    | nil =>
      rcases hp.lead h (by decide) with hskip | ⟨_, -, hnil⟩
      · rw [readRow, closeRow, hskip]
        exact .malformed rfl
      · exact absurd hnil not_cut_nil
  | cons key keys ih =>
    cases items with
    | nil =>
      rcases hp.lead h (by decide) with hskip | ⟨_, -, hnil⟩
      · have hitem : Truncated (nextItem (count == 0) p) := nextItem_blank hskip
        exact hitem.step fun halt hhalt => by rw [readRow, hhalt]
      · exact absurd hnil not_cut_nil
    | cons item items =>
      obtain ⟨lead, text, more, rfl, hlead, hspells, hmore⟩ := h
      obtain ⟨final, hfinal⟩ := Option.isSome_iff_exists.mp hrow
      obtain ⟨state', hstate, hrest⟩ := Option.bind_eq_some_iff.mp hfinal
      rw [List.append_assoc, List.append_assoc] at hp
      rw [readRow]
      rcases nextItem_cases hlead hspells hp with hitem | ⟨_, hread, hp' | ⟨p', rfl, hp'⟩⟩
      · exact hitem.step fun halt hhalt => by simp only [hhalt]
      · have haccept : (decode state key item).isSome := by rw [hstate]; rfl
        have hitem := hcut state key item [] text _ blank_nil hspells haccept hp'
        exact hitem.step fun halt hhalt => by simp only [hread, hhalt]
      · have hitem := hstep state key item [] text p' blank_nil hspells
        rw [hstate] at hitem
        have hdone := eq_ok_of_toOption hitem
        have hlater : Written.SpellsItems (count + 1 == 0) items more := hmore
        rw [List.nil_append] at hdone
        simp only [hread, hdone]
        exact ih hlater (Option.isSome_iff_exists.mpr ⟨final, hrest⟩) hp'

/-! ### Plain values -/

def Written.NumberFree (value : Written) : Prop :=
  ∃ v, value.value? = some v ∧ v.NumberFree

theorem Written.NumberFree.items {items : List Written} (h : (Written.array items).NumberFree) :
    ∀ item ∈ items, item.NumberFree := by
  obtain ⟨_, hvalue, hfree⟩ := h
  obtain ⟨vs, hvs, rfl⟩ := Option.map_eq_some_iff.mp hvalue
  replace hfree : NumberFreeItems vs := hfree
  clear hvalue
  induction items generalizing vs with
  | nil =>
    intro item hitem
    cases hitem
  | cons item items ih =>
    obtain ⟨v, rest, hv, hrest, rfl⟩ := items?_cons_eq_some_iff.mp hvs
    exact List.forall_mem_cons.mpr ⟨⟨v, hv, hfree.1⟩, ih rest hrest hfree.2⟩

theorem Written.NumberFree.members {members : List (List Piece × Written)}
    (h : (Written.object members).NumberFree) : ∀ member ∈ members, member.2.NumberFree := by
  obtain ⟨_, hvalue, hfree⟩ := h
  obtain ⟨vs, hvs, rfl⟩ := Option.map_eq_some_iff.mp hvalue
  replace hfree : NumberFreeMembers vs := hfree
  clear hvalue
  induction members generalizing vs with
  | nil =>
    intro member hmember
    cases hmember
  | cons member members ih =>
    obtain ⟨key, value⟩ := member
    obtain ⟨word, v, rest, -, hv, hrest, rfl⟩ := members?_cons_eq_some_iff.mp hvs
    exact List.forall_mem_cons.mpr ⟨⟨v, hv, hfree.1⟩, ih rest hrest hfree.2⟩

theorem readScalar_cut {value : Written} {c : Char} {more : List Char} (hflat : value.depth = 0)
    (hfree : value.NumberFree) (hspells : value.Spells (c :: more)) (hp : Cut p more) :
    Truncated (ofForm (readScalar (c :: p))) := by
  cases value with
  | null =>
    obtain ⟨rfl, rfl⟩ := List.cons.inj hspells
    exact truncated_ofForm (readWord_cut _ hp) rfl
  | boolean b =>
    cases b with
    | true =>
      obtain ⟨rfl, rfl⟩ := List.cons.inj hspells
      exact truncated_ofForm (readWord_cut _ hp) rfl
    | false =>
      obtain ⟨rfl, rfl⟩ := List.cons.inj hspells
      exact truncated_ofForm (readWord_cut _ hp) rfl
  | string pieces =>
    obtain ⟨rfl, rfl⟩ := List.cons.inj hspells
    obtain ⟨v, hvalue, -⟩ := hfree
    obtain ⟨word, hword, rfl⟩ := Option.map_eq_some_iff.mp hvalue
    have hread : readScalar ('"' :: p) = .error (.atEnd .endInString) := by
      rw [readScalar, readText_cut hword hp]
      rfl
    exact truncated_ofForm hread rfl
  | number literal =>
    obtain ⟨v, hvalue, hfree⟩ := hfree
    obtain ⟨n, -, rfl⟩ := Option.map_eq_some_iff.mp hvalue
    cases hfree
  | array items => exact absurd hflat (Nat.succ_ne_zero _)
  | object members => exact absurd hflat (Nat.succ_ne_zero _)

theorem readValue_blank (room : Nat) (h : skipBlanks p = []) : Truncated (readValue room p) := by
  rw [readValue.eq_def]
  dsimp only
  rw [h]
  exact .malformed rfl

theorem readValue_flat_cut {value : Written} {c : Char} {more p' : List Char} (room : Nat)
    (hflat : value.depth = 0) (hfree : value.NumberFree) (hspells : value.Spells (c :: more))
    (hskip : skipBlanks p = c :: p') (hp : Cut p' more) : Truncated (readValue room p) := by
  obtain ⟨_, _, heq, hc⟩ := hspells.begins
  obtain ⟨rfl, rfl⟩ := List.cons.inj heq
  rw [readValue.eq_def]
  dsimp only
  rw [hskip]
  split
  · rename_i heq
    obtain ⟨rfl, -⟩ := List.cons.inj heq
    obtain ⟨items, rfl⟩ := hc.array_of
    exact absurd hflat (Nat.succ_ne_zero _)
  · rename_i heq
    obtain ⟨rfl, -⟩ := List.cons.inj heq
    obtain ⟨members, rfl⟩ := hc.object_of
    exact absurd hflat (Nat.succ_ne_zero _)
  · exact readScalar_cut hflat hfree hspells hp

/-- A plain value without numbers that is cut off ends too early. -/
theorem readValue_cuts (room : Nat) :
    Cuts (fun value => value.NumberFree ∧ (value.within room).isSome) (readValue room) := by
  induction room with
  | zero =>
    intro value lead text p hlead hspells haccept hp
    obtain ⟨hfree, hwithin⟩ := haccept
    obtain ⟨v, hv⟩ := Option.isSome_iff_exists.mp hwithin
    have hflat : value.depth = 0 := Nat.le_zero.mp (Written.within_eq_some_iff.mp hv).1
    obtain ⟨c, more, rfl, hc⟩ := hspells.begins
    rcases hp.lead hlead hc.not_blank with hskip | ⟨p', hskip, hp'⟩
    · exact readValue_blank 0 hskip
    · exact readValue_flat_cut 0 hflat hfree hspells hskip hp'
  | succ room ih =>
    intro value lead text p hlead hspells haccept hp
    obtain ⟨hfree, hwithin⟩ := haccept
    obtain ⟨c, more, rfl, hc⟩ := hspells.begins
    rcases hp.lead hlead hc.not_blank with hskip | ⟨p', hskip, hp'⟩
    · exact readValue_blank (room + 1) hskip
    · cases value with
      | array items =>
        obtain ⟨inner, htext, hitems⟩ := hspells
        obtain ⟨rfl, rfl⟩ := List.cons.inj htext
        obtain ⟨blanks, hblanks, rfl⟩ := exists_blank_of_skipBlanks hskip
        have hstep := fun vs : List Json => (readValue_decodes room).map (· :: vs)
        have hcut := fun vs : List Json => ih.gather (· :: vs)
        rw [within_array, Option.isSome_map] at hwithin
        rw [readValue_array room hblanks]
        exact (readArray_cut hstep hcut hitems hfree.items hwithin hp').map _
      | object members =>
        obtain ⟨inner, htext, hmembers⟩ := hspells
        obtain ⟨rfl, rfl⟩ := List.cons.inj htext
        obtain ⟨blanks, hblanks, rfl⟩ := exists_blank_of_skipBlanks hskip
        have hstep := readColon_closed fun (vs : List (String × Json)) key =>
          (readValue_decodes room).map fun v => (key, v) :: vs
        have hcut := fun (vs : List (String × Json)) key =>
          readColon_cuts (ih.gather fun v => (key, v) :: vs)
        rw [within_object, Option.isSome_map] at hwithin
        rw [readValue_object room hblanks]
        exact (readObject_cut hstep hcut hmembers hfree.members hwithin hp').map _
      | null | boolean | number | string =>
        exact readValue_flat_cut (room + 1) rfl hfree hspells hskip hp'

end Setters.Json

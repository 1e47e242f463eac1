import Mathlib.Data.List.Basic
import Mathlib.Data.Option.Basic
import Setters.Proofs.Json.Written

/-!
# Reading blanks and string literals

The reader of string literals goes through the characters with a stage inside an escape; the
grammar has the escapes as wholes. `readLiteral_pieces` says that they agree, faults included.
-/

namespace Setters.Json

variable {α β ε : Type} {lead between : List Char} {pieces : List Piece}

/-! ### Outcomes -/

theorem toOption_map (result : Except ε α) (f : α → β) :
    (result.map f).toOption = result.toOption.map f := by
  cases result <;> rfl

theorem toOption_ofForm (result : Except Flaw α) :
    (ofForm result).toOption = result.toOption := by
  cases result <;> rfl

theorem toOption_ofContent (rest : List Char) (result : Except ContentFault α) :
    (ofContent rest result).toOption = result.toOption.map (·, rest) := by
  cases result <;> rfl

theorem toOption_settle (reach : List Char → List Char) (result : Except Halt α) :
    (settle reach result).toOption = result.toOption := by
  cases result with
  | ok a => rfl
  | error halt => cases halt <;> rfl

theorem eq_ok_of_toOption {result : Except ε α} {a : α} (h : result.toOption = some a) :
    result = .ok a := by
  cases result with
  | error fault => cases h
  | ok b => rw [Option.some.inj h]

theorem toOption_eq_some_iff {result : Except ε α} {a : α} :
    result.toOption = some a ↔ result = .ok a := by
  constructor
  · exact eq_ok_of_toOption
  · rintro rfl
    rfl

/-- A step of which the outcome is known fails, or gives what is expected. -/
theorem outcome_cases {result : Except ε β} {value : Option α} {f : α → β}
    (h : result.toOption = value.map f) :
    (value = none ∧ ∃ fault, result = .error fault) ∨
      ∃ a, value = some a ∧ result = .ok (f a) := by
  cases value with
  | none =>
    cases result with
    | error fault => exact .inl ⟨rfl, fault, rfl⟩
    | ok b => cases h
  | some a => exact .inr ⟨a, rfl, eq_ok_of_toOption h⟩

/-! ### Blanks -/

theorem skipBlanks_append (h : Blank lead) (cs : List Char) :
    skipBlanks (lead ++ cs) = skipBlanks cs :=
  List.dropWhile_append_of_pos h

theorem skipBlanks_cons {c : Char} (h : isBlank c = false) (cs : List Char) :
    skipBlanks (c :: cs) = c :: cs := by
  rw [skipBlanks, List.dropWhile_cons_of_neg]
  simp [h]

theorem skipBlanks_lead {c : Char} (hlead : Blank lead) (h : isBlank c = false) (cs : List Char) :
    skipBlanks (lead ++ c :: cs) = c :: cs := by
  rw [skipBlanks_append hlead, skipBlanks_cons h]

theorem readColon_lead (h : Blank between) (rest : List Char) :
    readColon (between ++ ':' :: rest) = .ok rest := by
  rw [readColon, skipBlanks_lead h (by decide)]
  rfl

/-! ### String literals -/

theorem HexDigit.hexValue?_letter (digit : HexDigit) :
    hexValue? digit.letter = some digit.value :=
  (Option.some_get digit.isHex).symm

/-- The four digits of a code unit are read at once. -/
theorem readLiteral_unit (digits : CodeUnit) (leading : Option Nat) (cs : List Char) :
    readLiteral (.unit 4 0 leading)
        (digits.first.letter :: digits.second.letter :: digits.third.letter ::
          digits.fourth.letter :: cs) =
      match leading with
      | none =>
        if isTrailing digits.value then .error (.before .loneSurrogate cs)
        else if isLeading digits.value then readLiteral (.half digits.value) cs
        else (readLiteral .plain cs).map fun (text, rest) =>
          (Char.ofNat digits.value :: text, rest)
      | some leading =>
        if isTrailing digits.value then
          (readLiteral .plain cs).map fun (text, rest) =>
            (pairedChar leading digits.value :: text, rest)
        else .error (.before .loneSurrogate cs) := by
  simp only [readLiteral, HexDigit.hexValue?_letter]
  cases leading with
  | none =>
    simp [CodeUnit.value]
    rfl
  | some leading =>
    simp [CodeUnit.value]
    rfl

theorem readLiteral_plain_unit (digits : CodeUnit) (more : List Piece) (cs : List Char) :
    readLiteral .plain (pieceChars (.unit digits :: more) ++ cs) =
      if isTrailing digits.value then .error (.before .loneSurrogate (pieceChars more ++ cs))
      else if isLeading digits.value then
        readLiteral (.half digits.value) (pieceChars more ++ cs)
      else (readLiteral .plain (pieceChars more ++ cs)).map fun (text, rest) =>
        (Char.ofNat digits.value :: text, rest) := by
  exact readLiteral_unit digits none (pieceChars more ++ cs)

theorem readLiteral_half_unit (leading : Nat) (digits : CodeUnit) (more : List Piece)
    (cs : List Char) :
    readLiteral (.half leading) (pieceChars (.unit digits :: more) ++ cs) =
      if isTrailing digits.value then
        (readLiteral .plain (pieceChars more ++ cs)).map fun (text, rest) =>
          (pairedChar leading digits.value :: text, rest)
      else .error (.before .loneSurrogate (pieceChars more ++ cs)) := by
  exact readLiteral_unit digits (some leading) (pieceChars more ++ cs)

/-- Behind a leading half another code unit has to come. -/
theorem readLiteral_half (leading : Nat) (rest : List Char)
    (h : ∀ digits more, pieces ≠ .unit digits :: more) :
    (readLiteral (.half leading) (pieceChars pieces ++ '"' :: rest)).toOption = none := by
  cases pieces with
  | nil => rfl
  | cons piece more =>
    cases piece with
    | plain c unescaped =>
      simp [pieceChars, Piece.chars, readLiteral, unescaped.2.1, Except.toOption]
    | short letter known =>
      have hletter : letter ≠ 'u' := by
        rintro rfl
        exact absurd known (by decide)
      simp [pieceChars, Piece.chars, readLiteral, hletter, Except.toOption]
    | unit digits => exact absurd rfl (h digits more)

/-- The characters of a literal are read up to its closing quote. -/
theorem readLiteral_pieces (pieces : List Piece) (rest : List Char) :
    (readLiteral .plain (pieceChars pieces ++ '"' :: rest)).toOption =
      (charsOf pieces).map (·, rest) := by
  fun_induction charsOf pieces with
  | case1 => rfl
  | case2 c unescaped more ih =>
    have hstep : readLiteral .plain (pieceChars (.plain c unescaped :: more) ++ '"' :: rest) =
        (readLiteral .plain (pieceChars more ++ '"' :: rest)).map
          fun (text, rest) => (c :: text, rest) := by
      obtain ⟨hquote, hslash, hcontrol⟩ := unescaped
      simp [pieceChars, Piece.chars, readLiteral, hquote, hslash, Nat.not_lt.mpr hcontrol]
    rw [hstep, toOption_map, ih, Option.map_map, Option.map_map]
    rfl
  | case3 letter known more ih =>
    have hstep : readLiteral .plain (pieceChars (.short letter known :: more) ++ '"' :: rest) =
        (readLiteral .plain (pieceChars more ++ '"' :: rest)).map
          fun (text, rest) => ((shortEscape? letter).get known :: text, rest) := by
      obtain ⟨d, hd⟩ := Option.isSome_iff_exists.mp known
      simp [pieceChars, Piece.chars, readLiteral, hd]
    rw [hstep, toOption_map, ih, Option.map_map, Option.map_map]
    rfl
  | case4 digits more htrailing =>
    rw [readLiteral_plain_unit, if_pos htrailing]
    rfl
  | case5 digits htrailing hleading digits' more htrailing' ih =>
    rw [readLiteral_plain_unit, if_neg htrailing, if_pos hleading, readLiteral_half_unit,
      if_pos htrailing', toOption_map, ih, Option.map_map, Option.map_map]
    rfl
  | case6 digits htrailing hleading digits' more htrailing' =>
    rw [readLiteral_plain_unit, if_neg htrailing, if_pos hleading, readLiteral_half_unit,
      if_neg htrailing']
    rfl
  | case7 digits more htrailing hleading hunit =>
    rw [readLiteral_plain_unit, if_neg htrailing, if_pos hleading,
      readLiteral_half digits.value rest hunit]
    rfl
  | case8 digits more htrailing hleading ih =>
    rw [readLiteral_plain_unit, if_neg htrailing, if_neg hleading, toOption_map, ih,
      Option.map_map, Option.map_map]
    rfl

theorem readText_pieces (pieces : List Piece) (rest : List Char) :
    (readText (pieceChars pieces ++ '"' :: rest)).toOption = (textOf pieces).map (·, rest) := by
  rw [readText, toOption_map, readLiteral_pieces, textOf, Option.map_map, Option.map_map]
  rfl

end Setters.Json

import Setters.Json.Reader

/-!
# JSON documents as they are written

The grammar of JSON texts. A `Written` is a value with its literals letter by letter, the members
of its objects in order; `Written.Spells` says which characters spell it, with any blanks between
the tokens. Nothing is asked of a value beyond its form: brackets may nest to any depth, numbers
may be out of range, and an escape may be half of a character with no other half beside it.
-/

namespace Setters.Json

/-! ### String literals -/

structure HexDigit where
  letter : Char
  isHex : (hexValue? letter).isSome

def HexDigit.value (digit : HexDigit) : Nat :=
  (hexValue? digit.letter).get digit.isHex

/-- The four digits of an escaped code unit. -/
structure CodeUnit where
  first : HexDigit
  second : HexDigit
  third : HexDigit
  fourth : HexDigit

def CodeUnit.value (unit : CodeUnit) : Nat :=
  ((unit.first.value * 16 + unit.second.value) * 16 + unit.third.value) * 16 + unit.fourth.value

/-- What a string literal is made of: characters that stand for themselves, one-letter escapes and
escaped code units. -/
inductive Piece where
  | plain (c : Char) (unescaped : c ≠ '"' ∧ c ≠ '\\' ∧ 0x20 ≤ c.toNat)
  | short (letter : Char) (known : (shortEscape? letter).isSome)
  | unit (digits : CodeUnit)

def Piece.chars : Piece → List Char
  | .plain c _ => [c]
  | .short letter _ => ['\\', letter]
  | .unit digits =>
    ['\\', 'u', digits.first.letter, digits.second.letter, digits.third.letter,
      digits.fourth.letter]

def pieceChars (pieces : List Piece) : List Char :=
  pieces.flatMap Piece.chars

def quoted (pieces : List Piece) : List Char :=
  '"' :: (pieceChars pieces ++ ['"'])

/-- The characters a literal stands for. A code unit that is half of a character has to be the
leading half and to have the trailing one right behind it. -/
def charsOf : List Piece → Option (List Char)
  | [] => some []
  | .plain c _ :: rest => (charsOf rest).map (c :: ·)
  | .short letter known :: rest => (charsOf rest).map ((shortEscape? letter).get known :: ·)
  | .unit digits :: rest =>
    if isTrailing digits.value then none
    else if isLeading digits.value then
      match rest with
      | .unit digits' :: rest =>
        if isTrailing digits'.value then
          (charsOf rest).map (pairedChar digits.value digits'.value :: ·)
        else none
      | _ => none
    else (charsOf rest).map (Char.ofNat digits.value :: ·)

def textOf (pieces : List Piece) : Option String :=
  (charsOf pieces).map String.ofList

/-! ### Numbers -/

structure Digits where
  chars : List Char
  ne_nil : chars ≠ []
  isDigit : ∀ c ∈ chars, c.isDigit

structure Exponent where
  mark : Char
  isMark : isExponentMark mark
  sign : List Char
  isSign : sign ∈ [[], ['+'], ['-']]
  digits : Digits

def Exponent.chars (exponent : Exponent) : List Char :=
  exponent.mark :: (exponent.sign ++ exponent.digits.chars)

/-- The parts of a number: its digits, at least one of them and no zero in front of others, what
stands behind a point, and an exponent. -/
structure NumberLiteral where
  negative : Bool
  whole : Digits
  leading : whole.chars.head? = some '0' → whole.chars = ['0']
  fraction : Option Digits
  exponent : Option Exponent

/-- The characters of a number without its sign. -/
def NumberLiteral.magnitude (number : NumberLiteral) : List Char :=
  number.whole.chars ++ (number.fraction.elim [] fun digits => '.' :: digits.chars) ++
    number.exponent.elim [] Exponent.chars

def NumberLiteral.chars (number : NumberLiteral) : List Char :=
  if number.negative then '-' :: number.magnitude else number.magnitude

/-! ### Values -/

/-- A value as it is written, blanks apart. -/
inductive Written where
  | null
  | boolean (value : Bool)
  | number (literal : NumberLiteral)
  | string (pieces : List Piece)
  | array (items : List Written)
  | object (members : List (List Piece × Written))

def Blank (cs : List Char) : Prop :=
  ∀ c ∈ cs, isBlank c

theorem blank_nil : Blank [] := by
  intro c hmem
  cases hmem

/-- What stands before an item or a member: blanks, and a comma among them unless it is the first
one. -/
def Lead : Bool → List Char → Prop
  | true, cs => Blank cs
  | false, cs => ∃ before after, cs = before ++ ',' :: after ∧ Blank before ∧ Blank after

namespace Written

mutual

/-- Whether the characters are a text of the value, from its first token to its last. -/
def Spells : Written → List Char → Prop
  | .null, cs => cs = ['n', 'u', 'l', 'l']
  | .boolean true, cs => cs = ['t', 'r', 'u', 'e']
  | .boolean false, cs => cs = ['f', 'a', 'l', 's', 'e']
  | .number literal, cs => cs = literal.chars
  | .string pieces, cs => cs = quoted pieces
  | .array items, cs => ∃ inner, cs = '[' :: (inner ++ [']']) ∧ SpellsItems true items inner
  | .object members, cs =>
    ∃ inner, cs = '\x7b' :: (inner ++ ['\x7d']) ∧ SpellsMembers true members inner

/-- Whether the characters are a text of the items that are left, up to the closing bracket. -/
def SpellsItems : Bool → List Written → List Char → Prop
  | _, [], cs => Blank cs
  | first, item :: items, cs =>
    ∃ lead text more, cs = lead ++ (text ++ more) ∧
      Lead first lead ∧ Spells item text ∧ SpellsItems false items more

/-- Whether the characters are a text of the members that are left, up to the closing brace. -/
def SpellsMembers : Bool → List (List Piece × Written) → List Char → Prop
  | _, [], cs => Blank cs
  | first, (key, value) :: members, cs =>
    ∃ lead between after text more,
      cs = lead ++ (quoted key ++ (between ++ ':' :: (after ++ (text ++ more)))) ∧
      Lead first lead ∧ Blank between ∧ Blank after ∧ Spells value text ∧
      SpellsMembers false members more

end

/-- Whether a text is a document of the value: blanks may stand before and after it. -/
def IsDocument (value : Written) (text : String) : Prop :=
  ∃ before body after, text.toList = before ++ (body ++ after) ∧
    Blank before ∧ Blank after ∧ value.Spells body

/-! ### Compact texts -/

mutual

def compact : Written → List Char
  | .null => ['n', 'u', 'l', 'l']
  | .boolean true => ['t', 'r', 'u', 'e']
  | .boolean false => ['f', 'a', 'l', 's', 'e']
  | .number literal => literal.chars
  | .string pieces => quoted pieces
  | .array items => '[' :: (compactItems true items ++ [']'])
  | .object members => '\x7b' :: (compactMembers true members ++ ['\x7d'])

def compactItems : Bool → List Written → List Char
  | _, [] => []
  | first, item :: items =>
    (if first then [] else [',']) ++ (compact item ++ compactItems false items)

def compactMembers : Bool → List (List Piece × Written) → List Char
  | _, [] => []
  | first, (key, value) :: members =>
    (if first then [] else [',']) ++
      (quoted key ++ ':' :: (compact value ++ compactMembers false members))

end

theorem lead_compact (first : Bool) : Lead first (if first then [] else [',']) := by
  cases first with
  | true => exact blank_nil
  | false => exact ⟨[], [], rfl, blank_nil, blank_nil⟩

mutual

theorem spells_compact : (value : Written) → value.Spells value.compact
  | .null => rfl
  | .boolean true => rfl
  | .boolean false => rfl
  | .number _ => rfl
  | .string _ => rfl
  | .array items => ⟨_, rfl, spellsItems_compact true items⟩
  | .object members => ⟨_, rfl, spellsMembers_compact true members⟩

theorem spellsItems_compact (first : Bool) :
    (items : List Written) → SpellsItems first items (compactItems first items)
  | [] => blank_nil
  | item :: items =>
    ⟨_, _, _, rfl, lead_compact first, spells_compact item, spellsItems_compact false items⟩

theorem spellsMembers_compact (first : Bool) :
    (members : List (List Piece × Written)) →
      SpellsMembers first members (compactMembers first members)
  | [] => blank_nil
  | (_, value) :: members =>
    ⟨_, [], [], _, _, rfl, lead_compact first, blank_nil, blank_nil, spells_compact value,
      spellsMembers_compact false members⟩

end

theorem Spells.isDocument {value : Written} {text : List Char} (h : value.Spells text) :
    value.IsDocument (String.ofList text) := by
  refine ⟨[], text, [], ?_, blank_nil, blank_nil, h⟩
  rw [String.toList_ofList, List.append_nil, List.nil_append]

theorem isDocument_compact (value : Written) :
    value.IsDocument (String.ofList value.compact) :=
  (spells_compact value).isDocument

end Written

end Setters.Json

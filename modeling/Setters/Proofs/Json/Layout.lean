import Setters.Proofs.Json.Printed

/-!
# Layout

What is put between the tokens of a text to lay it out: spaces and newlines outside its string
literals. `withoutLayout` deletes them, and for that it follows a text character by character and
keeps track of whether it is inside a literal.

`LaidOut` relates a text to what is left of it. The pretty text of a value without numbers is laid
out like this over the compact text, `laidOut_pretty`; the rest is read off the relation.
-/

namespace Setters.Json

/-! ### Inside and outside of literals -/

/-- Where a character stands to the string literals of a text. The quote that opens a literal is
outside, the one that closes it inside. -/
inductive Zone where
  | outside
  | inside
  /-- Inside, right behind the backslash of an escape. -/
  | escaped
deriving DecidableEq

/-- Where the character after the given one stands. -/
def Zone.next : Zone → Char → Zone
  | .outside, c => if c = '"' then .inside else .outside
  | .inside, c => if c = '"' then .outside else if c = '\\' then .escaped else .inside
  | .escaped, _ => .inside

/-- The characters of a text with where they stand, the first one in the given zone. -/
def placed : Zone → List Char → List (Zone × Char)
  | _, [] => []
  | zone, c :: cs => (zone, c) :: placed (zone.next c) cs

def outerChars (cs : List Char) : List Char :=
  ((placed .outside cs).filter fun entry => entry.1 = .outside).map Prod.snd

def isLayout (c : Char) : Bool :=
  c = ' ' || c = '\n'

/-- The characters of a text but for the layout outside its literals. -/
def bareChars (cs : List Char) : List Char :=
  ((placed .outside cs).filter fun entry => !(entry.1 = .outside && isLayout entry.2)).map Prod.snd

/-- The text without the spaces and newlines outside its literals. -/
def withoutLayout (text : String) : String :=
  String.ofList (bareChars text.toList)

/-- An ASCII character that is neither a control nor a blank. -/
def IsVisible (c : Char) : Prop :=
  0x20 < c.toNat ∧ c.toNat < 0x7f

instance (c : Char) : Decidable (IsVisible c) :=
  inferInstanceAs (Decidable (_ ∧ _))

variable {c : Char} {cs text bare text' bare' : List Char}

/-! ### Literals -/

/-- Whether characters that start inside a literal stay there. -/
def StaysInside (cs : List Char) : Prop :=
  ∀ rest, ∃ body, placed .inside (cs ++ rest) = body ++ placed .inside rest ∧
    body.map Prod.snd = cs ∧ ∀ entry ∈ body, entry.1 ≠ .outside

theorem staysInside_nil : StaysInside [] :=
  fun _ => ⟨[], rfl, rfl, by simp⟩

theorem StaysInside.append {ds : List Char} (hc : StaysInside cs) (hd : StaysInside ds) :
    StaysInside (cs ++ ds) := by
  intro rest
  obtain ⟨body, hplaced, hchars, hinside⟩ := hc (ds ++ rest)
  obtain ⟨body', hplaced', hchars', hinside'⟩ := hd rest
  refine ⟨body ++ body', ?_, ?_, ?_⟩
  · rw [List.append_assoc, hplaced, hplaced', List.append_assoc]
  · rw [List.map_append, hchars, hchars']
  · intro entry hmem
    exact (List.mem_append.mp hmem).elim (hinside entry) (hinside' entry)

theorem staysInside_plain (hquote : c ≠ '"') (hslash : c ≠ '\\') : StaysInside [c] := by
  intro rest
  refine ⟨[(.inside, c)], ?_, rfl, by simp⟩
  simp [placed, Zone.next, hquote, hslash]

theorem staysInside_escape (letter : Char) : StaysInside ['\\', letter] := by
  intro rest
  exact ⟨[(.inside, '\\'), (.escaped, letter)], rfl, rfl, by simp⟩

theorem HexDigit.ne_of_hexValue? (digit : HexDigit) (h : hexValue? c = none) :
    digit.letter ≠ c := by
  intro hletter
  have hhex := digit.isHex
  rw [hletter, h] at hhex
  cases hhex

theorem HexDigit.staysInside (digit : HexDigit) : StaysInside [digit.letter] :=
  staysInside_plain (digit.ne_of_hexValue? rfl) (digit.ne_of_hexValue? rfl)

theorem Piece.staysInside (piece : Piece) : StaysInside piece.chars := by
  cases piece with
  | plain c unescaped => exact staysInside_plain unescaped.1 unescaped.2.1
  | short letter known => exact staysInside_escape letter
  | unit digits =>
    exact (staysInside_escape 'u').append (digits.first.staysInside.append
      (digits.second.staysInside.append (digits.third.staysInside.append
        digits.fourth.staysInside)))

theorem staysInside_pieceChars (pieces : List Piece) : StaysInside (pieceChars pieces) := by
  induction pieces with
  | nil => exact staysInside_nil
  | cons piece pieces ih => exact piece.staysInside.append ih

theorem placed_quoted (pieces : List Piece) (rest : List Char) :
    ∃ body, placed .outside (quoted pieces ++ rest) =
        (.outside, '"') :: (body ++ placed .outside rest) ∧
      body.map Prod.snd = pieceChars pieces ++ ['"'] ∧ ∀ entry ∈ body, entry.1 ≠ .outside := by
  obtain ⟨body, hplaced, hchars, hinside⟩ := staysInside_pieceChars pieces ('"' :: rest)
  -- the quote at the end is the last character inside, and what follows it is outside again
  refine ⟨body ++ [(.inside, '"')], ?_, ?_, ?_⟩
  · have hopen : placed .outside (quoted pieces ++ rest) =
        (.outside, '"') :: placed .inside (pieceChars pieces ++ '"' :: rest) := by
      rw [quoted, List.cons_append, List.append_assoc, placed]
      rfl
    rw [hopen, hplaced, List.append_assoc]
    rfl
  · rw [List.map_append, hchars]
    rfl
  · intro entry hmem
    rcases List.mem_append.mp hmem with hbody | hlast
    · exact hinside entry hbody
    · rw [List.mem_singleton.mp hlast]
      simp

theorem bareChars_quoted (pieces : List Piece) (rest : List Char) :
    bareChars (quoted pieces ++ rest) = quoted pieces ++ bareChars rest := by
  obtain ⟨body, hplaced, hchars, hinside⟩ := placed_quoted pieces rest
  have hbody : body.filter (fun entry => !(entry.1 = .outside && isLayout entry.2)) = body := by
    refine List.filter_eq_self.mpr fun entry hmem => ?_
    simp [hinside entry hmem]
  rw [bareChars, hplaced, List.filter_cons_of_pos (by decide), List.filter_append, hbody,
    List.map_cons, List.map_append, hchars]
  rfl

theorem outerChars_quoted (pieces : List Piece) (rest : List Char) :
    outerChars (quoted pieces ++ rest) = '"' :: outerChars rest := by
  obtain ⟨body, hplaced, -, hinside⟩ := placed_quoted pieces rest
  have hbody : body.filter (fun entry => entry.1 = .outside) = [] := by
    refine List.filter_eq_nil_iff.mpr fun entry hmem => ?_
    simp [hinside entry hmem]
  rw [outerChars, hplaced, List.filter_cons_of_pos (by decide), List.filter_append, hbody]
  rfl

/-! ### Characters outside literals -/

theorem isLayout_iff : isLayout c = true ↔ c = ' ' ∨ c = '\n' := by
  rw [isLayout, Bool.or_eq_true, decide_eq_true_iff, decide_eq_true_iff]

theorem bareChars_layout (h : isLayout c) (cs : List Char) :
    bareChars (c :: cs) = bareChars cs := by
  have hquote : c ≠ '"' := by
    rintro rfl
    exact absurd h (by decide)
  simp [bareChars, placed, Zone.next, h, hquote]

theorem bareChars_mark (hlayout : isLayout c = false) (hquote : c ≠ '"') (cs : List Char) :
    bareChars (c :: cs) = c :: bareChars cs := by
  simp [bareChars, placed, Zone.next, hlayout, hquote]

theorem outerChars_mark (hquote : c ≠ '"') (cs : List Char) :
    outerChars (c :: cs) = c :: outerChars cs := by
  simp [outerChars, placed, Zone.next, hquote]

theorem IsVisible.not_layout (h : IsVisible c) : isLayout c = false := by
  rw [Bool.eq_false_iff]
  intro hlayout
  rcases isLayout_iff.mp hlayout with rfl | rfl
  · exact absurd h (by decide)
  · exact absurd h (by decide)

/-! ### Texts that are laid out -/

/-- Whether a text is a bare one with layout between its tokens: literals, and visible characters
outside them. -/
inductive LaidOut : List Char → List Char → Prop
  | nil : LaidOut [] []
  | layout {c : Char} {text bare : List Char} (isLayout : isLayout c) (rest : LaidOut text bare) :
      LaidOut (c :: text) bare
  | mark {c : Char} {text bare : List Char} (visible : IsVisible c) (unquoted : c ≠ '"')
      (rest : LaidOut text bare) : LaidOut (c :: text) (c :: bare)
  | literal {text bare : List Char} (pieces : List Piece) (rest : LaidOut text bare) :
      LaidOut (quoted pieces ++ text) (quoted pieces ++ bare)

namespace LaidOut

theorem append (h : LaidOut text bare) (h' : LaidOut text' bare') :
    LaidOut (text ++ text') (bare ++ bare') := by
  induction h with
  | nil => exact h'
  | layout isLayout rest ih => exact .layout isLayout ih
  | mark visible unquoted rest ih => exact .mark visible unquoted ih
  | literal pieces rest ih =>
    rw [List.append_assoc, List.append_assoc]
    exact .literal pieces ih

theorem bareChars_eq (h : LaidOut text bare) : bareChars text = bare := by
  induction h with
  | nil => rfl
  | layout isLayout rest ih => rw [bareChars_layout isLayout, ih]
  | mark visible unquoted rest ih => rw [bareChars_mark visible.not_layout unquoted, ih]
  | literal pieces rest ih => rw [bareChars_quoted, ih]

theorem visible_outerChars (h : LaidOut text bare) : ∀ c ∈ outerChars bare, IsVisible c := by
  induction h with
  | nil => simp [outerChars, placed]
  | layout isLayout rest ih => exact ih
  | mark visible unquoted rest ih =>
    rw [outerChars_mark unquoted]
    exact List.forall_mem_cons.mpr ⟨visible, ih⟩
  | literal pieces rest ih =>
    rw [outerChars_quoted]
    exact List.forall_mem_cons.mpr ⟨by decide, ih⟩

end LaidOut

/-! ### Controls -/

theorem of_control {p : Char → Prop} (hall : ∀ n : Fin 0x20, p (Char.ofNat n.val))
    (h : c.toNat < 0x20) : p c := by
  have hc := hall ⟨c.toNat, h⟩
  rwa [Char.ofNat_toNat] at hc

theorem shortEscape?_of_control (h : c.toNat < 0x20) : shortEscape? c = none :=
  of_control (p := fun c => shortEscape? c = none) (by decide) h

theorem hexValue?_of_control (h : c.toNat < 0x20) : hexValue? c = none :=
  of_control (p := fun c => hexValue? c = none) (by decide) h

theorem HexDigit.not_control (digit : HexDigit) : ¬digit.letter.toNat < 0x20 := by
  intro hcontrol
  exact digit.ne_of_hexValue? (hexValue?_of_control hcontrol) rfl

theorem Piece.not_control (piece : Piece) : ∀ c ∈ piece.chars, ¬c.toNat < 0x20 := by
  cases piece with
  | plain c unescaped =>
    -- no control stands in a literal as it is
    have hc : ¬c.toNat < 0x20 := Nat.not_lt.mpr unescaped.2.2
    simpa [chars] using hc
  | short letter known =>
    have hletter : ¬letter.toNat < 0x20 := by
      intro hcontrol
      rw [shortEscape?_of_control hcontrol] at known
      cases known
    simpa [chars] using hletter
  | unit digits =>
    have hfirst := digits.first.not_control
    have hsecond := digits.second.not_control
    have hthird := digits.third.not_control
    have hfourth := digits.fourth.not_control
    simp [chars] at hfirst hsecond hthird hfourth ⊢
    exact ⟨hfirst, hsecond, hthird, hfourth⟩

theorem not_control_quoted (pieces : List Piece) : ∀ c ∈ quoted pieces, ¬c.toNat < 0x20 := by
  intro c hmem
  rw [quoted, List.mem_cons, List.mem_append, List.mem_singleton] at hmem
  rcases hmem with rfl | hbody | rfl
  · decide
  · obtain ⟨piece, -, hpiece⟩ := List.mem_flatMap.mp hbody
    exact piece.not_control c hpiece
  · decide

theorem IsVisible.not_control (h : IsVisible c) : ¬c.toNat < 0x20 :=
  Nat.not_lt.mpr (Nat.le_of_lt h.1)

namespace LaidOut

theorem not_control_bare (h : LaidOut text bare) : ∀ c ∈ bare, ¬c.toNat < 0x20 := by
  induction h with
  | nil => simp
  | layout isLayout rest ih => exact ih
  | mark visible unquoted rest ih => exact List.forall_mem_cons.mpr ⟨visible.not_control, ih⟩
  | literal pieces rest ih =>
    exact List.forall_mem_append.mpr ⟨not_control_quoted pieces, ih⟩

theorem newline_of_control (h : LaidOut text bare) : ∀ c ∈ text, c.toNat < 0x20 → c = '\n' := by
  induction h with
  | nil => simp
  | layout isLayout rest ih =>
    refine List.forall_mem_cons.mpr ⟨fun hcontrol => ?_, ih⟩
    rcases isLayout_iff.mp isLayout with rfl | rfl
    · exact absurd hcontrol (by decide)
    · rfl
  | mark visible unquoted rest ih =>
    exact List.forall_mem_cons.mpr ⟨fun hcontrol => absurd hcontrol visible.not_control, ih⟩
  | literal pieces rest ih =>
    refine List.forall_mem_append.mpr ⟨fun c hmem hcontrol => ?_, ih⟩
    exact absurd hcontrol (not_control_quoted pieces c hmem)

end LaidOut

/-! ### Pretty texts -/

theorem laidOut_marks (cs : List Char) (h : cs.all fun c => IsVisible c ∧ c ≠ '"') :
    LaidOut cs cs := by
  induction cs with
  | nil => exact .nil
  | cons c cs ih =>
    rw [List.all_cons, Bool.and_eq_true, decide_eq_true_iff] at h
    exact .mark h.1.1 h.1.2 (ih h.2)

theorem laidOut_literal (word : String) : LaidOut (literal word) (literal word) := by
  obtain ⟨pieces, hquoted, -⟩ := exists_pieces word
  have hlaid := LaidOut.literal pieces .nil
  rwa [List.append_nil, hquoted] at hlaid

theorem laidOut_newLine (level : Nat) : LaidOut (newLine level) [] := by
  refine .layout (by decide) ?_
  -- the level only tells how many spaces there are
  induction 2 * level with
  | zero => exact .nil
  | succ n ih => exact .layout (by decide) ih

theorem laidOut_comma {text bare : List Char} (h : LaidOut text bare) :
    LaidOut (',' :: text) (',' :: bare) :=
  .mark (by decide) (by decide) h

theorem laidOut_colon {text bare : List Char} (h : LaidOut text bare) :
    LaidOut (':' :: ' ' :: text) (':' :: bare) :=
  .mark (by decide) (by decide) (.layout (by decide) h)

mutual

/-- The pretty text of a value is its compact text, laid out. -/
theorem laidOut_pretty (level : Nat) :
    (v : Json) → v.NumberFree → LaidOut (prettyChars level v) (compactChars v)
  | .null, _ => laidOut_marks ['n', 'u', 'l', 'l'] (by decide)
  | .boolean true, _ => laidOut_marks ['t', 'r', 'u', 'e'] (by decide)
  | .boolean false, _ => laidOut_marks ['f', 'a', 'l', 's', 'e'] (by decide)
  | .number _, h => h.elim
  | .string word, _ => laidOut_literal word
  | .array [], _ => laidOut_marks ['[', ']'] (by decide)
  | .array (v :: vs), h => by
    have hitems := laidOut_prettyItems (level + 1) (v :: vs) h
    have hclose : LaidOut (newLine level ++ [']']) [']'] :=
      (laidOut_newLine level).append (laidOut_marks _ (by decide))
    rw [prettyChars, List.append_assoc, compactChars]
    · exact .mark (by decide) (by decide) (hitems.append hclose)
    · exact List.cons_ne_nil v vs
  | .object [], _ => laidOut_marks ['\x7b', '\x7d'] (by decide)
  | .object (v :: vs), h => by
    have hmembers := laidOut_prettyMembers (level + 1) (v :: vs) h
    have hclose : LaidOut (newLine level ++ ['\x7d']) ['\x7d'] :=
      (laidOut_newLine level).append (laidOut_marks _ (by decide))
    rw [prettyChars, List.append_assoc, compactChars]
    · exact .mark (by decide) (by decide) (hmembers.append hclose)
    · exact List.cons_ne_nil v vs

theorem laidOut_prettyItems (level : Nat) :
    (vs : List Json) → NumberFreeItems vs → LaidOut (prettyItems level vs) (compactItems vs)
  | [], _ => .nil
  | [v], h => (laidOut_newLine level).append (laidOut_pretty level v h.1)
  | v :: v' :: vs, h => by
    have hitem := (laidOut_newLine level).append (laidOut_pretty level v h.1)
    have hmore := laidOut_prettyItems level (v' :: vs) h.2
    exact hitem.append (laidOut_comma hmore)

theorem laidOut_prettyMembers (level : Nat) :
    (vs : List (String × Json)) → NumberFreeMembers vs →
      LaidOut (prettyMembers level vs) (compactMembers vs)
  | [], _ => .nil
  | [(word, v)], h => by
    have hkey := (laidOut_newLine level).append (laidOut_literal word)
    have hvalue := laidOut_pretty level v h.1
    exact hkey.append (laidOut_colon hvalue)
  | (word, v) :: v' :: vs, h => by
    have hkey := (laidOut_newLine level).append (laidOut_literal word)
    have hvalue := laidOut_pretty level v h.1
    have hmore := laidOut_prettyMembers level (v' :: vs) h.2
    have hothers := hvalue.append (laidOut_comma hmore)
    exact hkey.append (laidOut_colon hothers)

end

theorem newline_mem_pretty (level : Nat) (member : String × Json) (members : List (String × Json)) :
    '\n' ∈ prettyChars level (.object (member :: members)) := by
  rw [prettyChars]
  · have hclose : '\n' ∈ newLine level ++ ['\x7d'] := List.mem_cons_self
    rw [List.append_assoc]
    exact List.mem_cons_of_mem _ (List.mem_append_right _ hclose)
  · exact List.cons_ne_nil member members

end Setters.Json

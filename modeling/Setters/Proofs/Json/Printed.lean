import Setters.Json.Printer
import Setters.Proofs.Json.Value

/-!
# Printed values are documents

The compact and the pretty text of a value are documents of it: they are spelled as the grammar
says, and what is written there has the value that was printed. Numbers are left aside, so
`exists_isDocument_of_prints` is about the values without numbers.
-/

namespace Setters.Json

/-! ### Literals -/

theorem hexValue?_hexDigit {n : Nat} (h : n < 16) : hexValue? (hexDigit n) = some n := by
  have hall : ∀ i : Fin 16, hexValue? (hexDigit i.val) = some i.val := by decide
  exact hall ⟨n, h⟩

/-- The digit that is printed for a number below 16. -/
def HexDigit.ofNat (n : Nat) (h : n < 16) : HexDigit :=
  ⟨hexDigit n, by rw [hexValue?_hexDigit h]; rfl⟩

theorem HexDigit.value_ofNat {n : Nat} (h : n < 16) : (HexDigit.ofNat n h).value = n := by
  have hvalue := hexValue?_hexDigit h
  simp only [HexDigit.value, HexDigit.ofNat, hvalue, Option.get_some]

/-- The code unit that is printed for a control. -/
def CodeUnit.ofControl (n : Nat) (h : n < 0x20) : CodeUnit where
  first := .ofNat 0 (by omega)
  second := .ofNat 0 (by omega)
  third := .ofNat (n / 16) (by omega)
  fourth := .ofNat (n % 16) (by omega)

theorem CodeUnit.value_ofControl {n : Nat} (h : n < 0x20) : (CodeUnit.ofControl n h).value = n := by
  simp only [CodeUnit.value, CodeUnit.ofControl, HexDigit.value_ofNat]
  omega

theorem exists_piece_short {c : Char} (letter : Char) (hletter : shortEscape? letter = some c)
    (hescape : escapeChar c = ['\\', letter]) :
    ∃ piece : Piece, piece.chars = escapeChar c ∧
      ∀ rest, charsOf (piece :: rest) = (charsOf rest).map (c :: ·) := by
  have hknown : (shortEscape? letter).isSome := by rw [hletter]; rfl
  have hget : (shortEscape? letter).get hknown = c := by simp only [hletter, Option.get_some]
  exact ⟨.short letter hknown, hescape.symm, fun rest => by rw [charsOf, hget]⟩

/-- A character is printed as one piece, which stands for it. -/
theorem exists_piece (c : Char) :
    ∃ piece : Piece, piece.chars = escapeChar c ∧
      ∀ rest, charsOf (piece :: rest) = (charsOf rest).map (c :: ·) := by
  by_cases hquote : c = '"'
  · subst hquote
    exact exists_piece_short '"' rfl rfl
  by_cases hslash : c = '\\'
  · subst hslash
    exact exists_piece_short '\\' rfl rfl
  by_cases hback : c = '\x08'
  · subst hback
    exact exists_piece_short 'b' rfl rfl
  by_cases hfeed : c = '\x0c'
  · subst hfeed
    exact exists_piece_short 'f' rfl rfl
  by_cases hline : c = '\n'
  · subst hline
    exact exists_piece_short 'n' rfl rfl
  by_cases hreturn : c = '\r'
  · subst hreturn
    exact exists_piece_short 'r' rfl rfl
  by_cases htab : c = '\t'
  · subst htab
    exact exists_piece_short 't' rfl rfl
  by_cases hcontrol : c.toNat < 0x20
  · refine ⟨.unit (.ofControl c.toNat hcontrol), ?_, fun rest => ?_⟩
    · rw [escapeChar, if_neg hquote, if_neg hslash, if_neg hback, if_neg hfeed, if_neg hline,
        if_neg hreturn, if_neg htab, if_pos hcontrol]
      rfl
    · have htrailing : ¬isTrailing c.toNat := by
        simp only [isTrailing, Bool.and_eq_true, decide_eq_true_eq]
        omega
      have hleading : ¬isLeading c.toNat := by
        simp only [isLeading, Bool.and_eq_true, decide_eq_true_eq]
        omega
      rw [charsOf.eq_def]
      dsimp only
      rw [CodeUnit.value_ofControl, if_neg htrailing, if_neg hleading, Char.ofNat_toNat]
  · refine ⟨.plain c ⟨hquote, hslash, Nat.le_of_not_lt hcontrol⟩, ?_, fun rest => rfl⟩
    rw [escapeChar, if_neg hquote, if_neg hslash, if_neg hback, if_neg hfeed, if_neg hline,
      if_neg hreturn, if_neg htab, if_neg hcontrol]
    rfl

theorem exists_pieces_chars (cs : List Char) :
    ∃ pieces, pieceChars pieces = cs.flatMap escapeChar ∧ charsOf pieces = some cs := by
  induction cs with
  | nil => exact ⟨[], rfl, rfl⟩
  | cons c cs ih =>
    obtain ⟨pieces, hchars, hcs⟩ := ih
    obtain ⟨piece, hpiece, hc⟩ := exists_piece c
    refine ⟨piece :: pieces, ?_, by rw [hc, hcs, Option.map_some]⟩
    rw [List.flatMap_cons, ← hchars, ← hpiece]
    rfl

/-- The literal of a text is made of pieces that stand for the text. -/
theorem exists_pieces (text : String) :
    ∃ pieces, quoted pieces = literal text ∧ textOf pieces = some text := by
  obtain ⟨pieces, hchars, hcs⟩ := exists_pieces_chars text.toList
  refine ⟨pieces, by rw [quoted, literal, hchars], ?_⟩
  rw [textOf, hcs, Option.map_some, String.ofList_toList]

/-! ### Items and members -/

mutual

def NumberFree : Json → Prop
  | .number _ => False
  | .array items => NumberFreeItems items
  | .object members => NumberFreeMembers members
  | _ => True

def NumberFreeItems : List Json → Prop
  | [] => True
  | item :: items => NumberFree item ∧ NumberFreeItems items

def NumberFreeMembers : List (String × Json) → Prop
  | [] => True
  | (_, value) :: members => NumberFree value ∧ NumberFreeMembers members

end

namespace Written

variable {item item' value : Written} {items : List Written} {key : List Piece}
  {member : List Piece × Written} {members : List (List Piece × Written)}
  {lead text after more : List Char}

theorem spellsItems_last (hlead : Blank lead) (hitem : Spells item text) (hafter : Blank after) :
    SpellsItems true [item] (lead ++ (text ++ after)) :=
  ⟨lead, text, after, rfl, hlead, hitem, hafter⟩

theorem SpellsItems.comma (h : SpellsItems true (item :: items) more) :
    SpellsItems false (item :: items) (',' :: more) := by
  obtain ⟨lead, text, rest, rfl, hlead, hitem, hrest⟩ := h
  exact ⟨',' :: lead, text, rest, rfl, ⟨[], lead, rfl, blank_nil, hlead⟩, hitem, hrest⟩

theorem spellsItems_cons (hlead : Blank lead) (hitem : Spells item text)
    (hmore : SpellsItems true (item' :: items) more) :
    SpellsItems true (item :: item' :: items) (lead ++ (text ++ ',' :: more)) :=
  ⟨lead, text, ',' :: more, rfl, hlead, hitem, hmore.comma⟩

theorem spellsMembers_last (key : List Piece) {between : List Char} (hlead : Blank lead)
    (hbetween : Blank between) (hvalue : Spells value text) (hafter : Blank after) :
    SpellsMembers true [(key, value)]
      (lead ++ (quoted key ++ ':' :: (between ++ (text ++ after)))) :=
  ⟨lead, [], between, text, after, rfl, hlead, blank_nil, hbetween, hvalue, hafter⟩

theorem SpellsMembers.comma (h : SpellsMembers true (member :: members) more) :
    SpellsMembers false (member :: members) (',' :: more) := by
  obtain ⟨lead, between, after, text, rest, rfl, hlead, hmember⟩ := h
  exact ⟨',' :: lead, between, after, text, rest, rfl, ⟨[], lead, rfl, blank_nil, hlead⟩, hmember⟩

theorem spellsMembers_cons (key : List Piece) {between : List Char} (hlead : Blank lead)
    (hbetween : Blank between) (hvalue : Spells value text)
    (hmore : SpellsMembers true (member :: members) more) :
    SpellsMembers true ((key, value) :: member :: members)
      (lead ++ (quoted key ++ ':' :: (between ++ (text ++ ',' :: more)))) :=
  ⟨lead, [], between, text, ',' :: more, rfl, hlead, blank_nil, hbetween, hvalue, hmore.comma⟩

theorem exists_cons_of_items? {v : Json} {vs : List Json} (h : items? items = some (v :: vs)) :
    ∃ item rest, items = item :: rest := by
  cases items with
  | nil => cases h
  | cons item rest => exact ⟨item, rest, rfl⟩

theorem exists_cons_of_members? {v : String × Json} {vs : List (String × Json)}
    (h : members? members = some (v :: vs)) : ∃ member rest, members = member :: rest := by
  cases members with
  | nil => cases h
  | cons member rest => exact ⟨member, rest, rfl⟩

end Written

/-! ### Compact texts -/

mutual

theorem exists_compact : (v : Json) → v.NumberFree →
    ∃ value : Written, value.value? = some v ∧ value.Spells (compactChars v)
  | .null, _ => ⟨.null, rfl, rfl⟩
  | .boolean true, _ => ⟨.boolean true, rfl, rfl⟩
  | .boolean false, _ => ⟨.boolean false, rfl, rfl⟩
  | .number _, h => h.elim
  | .string text, _ => by
    obtain ⟨pieces, hquoted, htext⟩ := exists_pieces text
    exact ⟨.string pieces, by rw [Written.value?, htext, Option.map_some], hquoted.symm⟩
  | .array vs, h => by
    obtain ⟨items, hitems, hspells⟩ := exists_compactItems vs h
    exact ⟨.array items, by rw [Written.value?, hitems, Option.map_some], _, rfl, hspells⟩
  | .object vs, h => by
    obtain ⟨members, hmembers, hspells⟩ := exists_compactMembers vs h
    exact ⟨.object members, by rw [Written.value?, hmembers, Option.map_some], _, rfl, hspells⟩

theorem exists_compactItems : (vs : List Json) → NumberFreeItems vs →
    ∃ items, Written.items? items = some vs ∧ Written.SpellsItems true items (compactItems vs)
  | [], _ => ⟨[], rfl, blank_nil⟩
  | [v], h => by
    obtain ⟨item, hitem, hspells⟩ := exists_compact v h.1
    refine ⟨[item], by rw [Written.items?, hitem]; rfl, ?_⟩
    have hlast := Written.spellsItems_last blank_nil hspells blank_nil
    rwa [List.nil_append, List.append_nil] at hlast
  | v :: v' :: vs, h => by
    obtain ⟨item, hitem, hspells⟩ := exists_compact v h.1
    obtain ⟨items, hitems, hmore⟩ := exists_compactItems (v' :: vs) h.2
    obtain ⟨item', rest, rfl⟩ := Written.exists_cons_of_items? hitems
    refine ⟨item :: item' :: rest, ?_, Written.spellsItems_cons blank_nil hspells hmore⟩
    rw [Written.items?, hitem, hitems]
    rfl

theorem exists_compactMembers : (vs : List (String × Json)) → NumberFreeMembers vs →
    ∃ members, Written.members? members = some vs ∧
      Written.SpellsMembers true members (compactMembers vs)
  | [], _ => ⟨[], rfl, blank_nil⟩
  | [(word, v)], h => by
    obtain ⟨key, hquoted, hkey⟩ := exists_pieces word
    obtain ⟨value, hvalue, hspells⟩ := exists_compact v h.1
    refine ⟨[(key, value)], by rw [Written.members?, hkey, hvalue]; rfl, ?_⟩
    have hlast := Written.spellsMembers_last key blank_nil blank_nil hspells blank_nil
    rwa [List.nil_append, List.nil_append, List.append_nil, hquoted] at hlast
  | (word, v) :: v' :: vs, h => by
    obtain ⟨key, hquoted, hkey⟩ := exists_pieces word
    obtain ⟨value, hvalue, hspells⟩ := exists_compact v h.1
    obtain ⟨members, hmembers, hmore⟩ := exists_compactMembers (v' :: vs) h.2
    obtain ⟨member', rest, rfl⟩ := Written.exists_cons_of_members? hmembers
    refine ⟨(key, value) :: member' :: rest, ?_, ?_⟩
    · rw [Written.members?, hkey, hvalue, hmembers]
      rfl
    · have hcons := Written.spellsMembers_cons key blank_nil blank_nil hspells hmore
      rwa [List.nil_append, List.nil_append, hquoted] at hcons

end

/-! ### Pretty texts -/

theorem blank_newLine (level : Nat) : Blank (newLine level) := by
  intro c hc
  rcases List.mem_cons.mp hc with rfl | hspace
  · rfl
  · rw [List.eq_of_mem_replicate hspace]
    rfl

theorem blank_space : Blank [' '] := by
  intro c hc
  rw [List.mem_singleton.mp hc]
  rfl

mutual

theorem exists_pretty (level : Nat) : (v : Json) → v.NumberFree →
    ∃ value : Written, value.value? = some v ∧ value.Spells (prettyChars level v)
  | .null, _ => ⟨.null, rfl, rfl⟩
  | .boolean true, _ => ⟨.boolean true, rfl, rfl⟩
  | .boolean false, _ => ⟨.boolean false, rfl, rfl⟩
  | .number _, h => h.elim
  | .string text, _ => by
    obtain ⟨pieces, hquoted, htext⟩ := exists_pieces text
    exact ⟨.string pieces, by rw [Written.value?, htext, Option.map_some], hquoted.symm⟩
  | .array [], _ => ⟨.array [], rfl, [], rfl, blank_nil⟩
  | .array (v :: vs), h => by
    obtain ⟨items, hitems, hspells⟩ :=
      exists_prettyItems (level + 1) (v :: vs) h (newLine level) (blank_newLine level)
    exact ⟨.array items, by rw [Written.value?, hitems, Option.map_some], _, rfl, hspells⟩
  | .object [], _ => ⟨.object [], rfl, [], rfl, blank_nil⟩
  | .object (v :: vs), h => by
    obtain ⟨members, hmembers, hspells⟩ :=
      exists_prettyMembers (level + 1) (v :: vs) h (newLine level) (blank_newLine level)
    exact ⟨.object members, by rw [Written.value?, hmembers, Option.map_some], _, rfl, hspells⟩

theorem exists_prettyItems (level : Nat) : (vs : List Json) → NumberFreeItems vs →
    ∀ after, Blank after → ∃ items, Written.items? items = some vs ∧
      Written.SpellsItems true items (prettyItems level vs ++ after)
  | [], _, after, hafter => ⟨[], rfl, hafter⟩
  | [v], h, after, hafter => by
    obtain ⟨item, hitem, hspells⟩ := exists_pretty level v h.1
    refine ⟨[item], by rw [Written.items?, hitem]; rfl, ?_⟩
    rw [prettyItems, List.append_assoc]
    exact Written.spellsItems_last (blank_newLine level) hspells hafter
  | v :: v' :: vs, h, after, hafter => by
    obtain ⟨item, hitem, hspells⟩ := exists_pretty level v h.1
    obtain ⟨items, hitems, hmore⟩ := exists_prettyItems level (v' :: vs) h.2 after hafter
    obtain ⟨item', rest, rfl⟩ := Written.exists_cons_of_items? hitems
    refine ⟨item :: item' :: rest, by rw [Written.items?, hitem, hitems]; rfl, ?_⟩
    rw [prettyItems, List.append_assoc, List.append_assoc, List.cons_append]
    · exact Written.spellsItems_cons (blank_newLine level) hspells hmore
    · exact List.cons_ne_nil v' vs

theorem exists_prettyMembers (level : Nat) : (vs : List (String × Json)) → NumberFreeMembers vs →
    ∀ after, Blank after → ∃ members, Written.members? members = some vs ∧
      Written.SpellsMembers true members (prettyMembers level vs ++ after)
  | [], _, after, hafter => ⟨[], rfl, hafter⟩
  | [(word, v)], h, after, hafter => by
    obtain ⟨key, hquoted, hkey⟩ := exists_pieces word
    obtain ⟨value, hvalue, hspells⟩ := exists_pretty level v h.1
    refine ⟨[(key, value)], by rw [Written.members?, hkey, hvalue]; rfl, ?_⟩
    have hlast := Written.spellsMembers_last key (blank_newLine level) blank_space hspells hafter
    rw [hquoted] at hlast
    simpa only [prettyMembers, List.append_assoc, List.cons_append, List.nil_append] using hlast
  | (word, v) :: v' :: vs, h, after, hafter => by
    obtain ⟨key, hquoted, hkey⟩ := exists_pieces word
    obtain ⟨value, hvalue, hspells⟩ := exists_pretty level v h.1
    obtain ⟨members, hmembers, hmore⟩ := exists_prettyMembers level (v' :: vs) h.2 after hafter
    obtain ⟨member', rest, rfl⟩ := Written.exists_cons_of_members? hmembers
    refine ⟨(key, value) :: member' :: rest,
      by rw [Written.members?, hkey, hvalue, hmembers]; rfl, ?_⟩
    have hcons := Written.spellsMembers_cons key (blank_newLine level) blank_space hspells hmore
    rw [hquoted] at hcons
    simpa only [prettyMembers, List.append_assoc, List.cons_append, List.nil_append] using hcons

end

/-! ### Documents -/

/-- Whether a text is what a value without numbers is printed as. -/
def Prints (v : Json) (text : String) : Prop :=
  text = compact v ∨ text = pretty v

/-- Both texts of a value are documents of it. -/
theorem exists_isDocument_of_prints {v : Json} (hfree : v.NumberFree) {text : String}
    (h : Prints v text) : ∃ value : Written, value.value? = some v ∧ value.IsDocument text := by
  rcases h with rfl | rfl
  · obtain ⟨value, hvalue, hspells⟩ := exists_compact v hfree
    exact ⟨value, hvalue, hspells.isDocument⟩
  · obtain ⟨value, hvalue, hspells⟩ := exists_pretty 0 v hfree
    exact ⟨value, hvalue, hspells.isDocument⟩

end Setters.Json

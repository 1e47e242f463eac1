import Setters.Proofs.TargetPath

/-!
# Which texts are paths

A text is a path when each of the pieces between its dots is an identifier, and the path has that
text. Where a piece is none, the leftmost such piece is blamed, by its position if it is empty and
by its characters otherwise. `parse_judges_text` puts the four outcomes together.

`LeftmostFault` follows the pieces one at a time, which is how `readSegments` meets them.
-/

namespace Setters

/-! ### Identifiers -/

/-- An ASCII letter or an underscore, by ranges. -/
def IsLetter (c : Char) : Prop :=
  'A' ≤ c ∧ c ≤ 'Z' ∨ 'a' ≤ c ∧ c ≤ 'z' ∨ c = '_'

def IsDigit (c : Char) : Prop :=
  '0' ≤ c ∧ c ≤ '9'

/-- The pattern `[A-Za-z_][A-Za-z0-9_]*`. -/
def SpellsIdentifier : List Char → Prop
  | [] => False
  | c :: cs => IsLetter c ∧ ∀ d ∈ cs, IsLetter d ∨ IsDigit d

theorem isIdentifierStart_iff (c : Char) : isIdentifierStart c = true ↔ IsLetter c := by
  have halpha : c.isAlpha = (c.isUpper || c.isLower) := rfl
  have hupper : c.isUpper = true ↔ 'A' ≤ c ∧ c ≤ 'Z' := decide_eq_true_iff
  have hlower : c.isLower = true ↔ 'a' ≤ c ∧ c ≤ 'z' := by
    show (decide ('a' ≤ c) && decide (c ≤ 'z')) = true ↔ 'a' ≤ c ∧ c ≤ 'z'
    simp
  simp only [isIdentifierStart, halpha, Bool.or_eq_true, hupper, hlower, beq_iff_eq, or_assoc,
    IsLetter]

theorem isIdentifierRest_iff (c : Char) :
    isIdentifierRest c = true ↔ IsLetter c ∨ IsDigit c := by
  have hdigit : c.isDigit = true ↔ IsDigit c := by
    show (decide ('0' ≤ c) && decide (c ≤ '9')) = true ↔ '0' ≤ c ∧ c ≤ '9'
    simp
  have hsplit : isIdentifierRest c = (isIdentifierStart c || c.isDigit) := by
    simp only [isIdentifierRest, isIdentifierStart, Char.isAlphanum]
    cases c.isAlpha <;> cases c.isDigit <;> simp
  rw [hsplit, Bool.or_eq_true, isIdentifierStart_iff, hdigit]

theorem isIdentifier_iff (piece : List Char) :
    isIdentifier piece = true ↔ SpellsIdentifier piece := by
  cases piece with
  | nil => simp [isIdentifier, SpellsIdentifier]
  | cons c cs =>
    simp only [isIdentifier, SpellsIdentifier, Bool.and_eq_true, List.all_eq_true,
      isIdentifierStart_iff, isIdentifierRest_iff]

theorem Identifier.spells (s : Identifier) : SpellsIdentifier s.name.toList :=
  (isIdentifier_iff s.name.toList).mp s.valid

theorem exists_identifiers {names : List String} (h : ∀ name ∈ names, SpellsIdentifier name.toList) :
    ∃ segments : List Identifier, segments.map Identifier.name = names := by
  induction names with
  | nil => exact ⟨[], rfl⟩
  | cons name rest ih =>
    obtain ⟨hname, hrest⟩ := List.forall_mem_cons.mp h
    obtain ⟨segments, hsegments⟩ := ih hrest
    have hvalid : isIdentifier name.toList = true := (isIdentifier_iff name.toList).mpr hname
    exact ⟨⟨name, hvalid⟩ :: segments, by simp [hsegments]⟩

/-! ### The leftmost fault -/

/-- The piece at a position is no identifier, and every piece before it is one. -/
def LeftmostFault (pieces : List (List Char)) (position : Nat) (piece : List Char) : Prop :=
  pieces[position]? = some piece ∧ ¬SpellsIdentifier piece ∧
    ∀ earlier ∈ pieces.take position, SpellsIdentifier earlier

/-- What is said of a piece that is no identifier. -/
def pieceFault (path : String) (position : Nat) (piece : List Char) : PathFault :=
  if piece = [] then .emptySegment path position else .invalidSegment path (String.ofList piece)

variable {path path' : String} {position i : Nat} {piece first : List Char}
  {rest : List (List Char)}

theorem pieceFault_ne_empty : .empty ≠ pieceFault path position piece := by
  unfold pieceFault
  split <;> simp

theorem emptySegment_eq_pieceFault_iff :
    .emptySegment path' i = pieceFault path position piece ↔
      path' = path ∧ i = position ∧ piece = [] := by
  unfold pieceFault
  by_cases hpiece : piece = [] <;> simp [hpiece]

theorem invalidSegment_eq_pieceFault_iff {segment : String} :
    .invalidSegment path' segment = pieceFault path position piece ↔
      path' = path ∧ segment.toList = piece ∧ piece ≠ [] := by
  have htext : segment = String.ofList piece ↔ segment.toList = piece := by
    rw [← String.toList_inj, String.toList_ofList]
  unfold pieceFault
  by_cases hpiece : piece = []
  · simp [hpiece]
  · simp [hpiece, htext]

theorem not_leftmostFault_nil : ¬LeftmostFault [] position piece := by
  intro h
  cases h.1

theorem leftmostFault_zero :
    LeftmostFault (first :: rest) 0 piece ↔ first = piece ∧ ¬SpellsIdentifier first := by
  constructor
  · rintro ⟨hfirst, hpiece, -⟩
    obtain rfl : first = piece := Option.some.inj hfirst
    exact ⟨rfl, hpiece⟩
  · rintro ⟨rfl, hpiece⟩
    exact ⟨rfl, hpiece, by simp⟩

theorem leftmostFault_succ :
    LeftmostFault (first :: rest) (position + 1) piece ↔
      SpellsIdentifier first ∧ LeftmostFault rest position piece := by
  simp only [LeftmostFault, List.getElem?_cons_succ, List.take_succ_cons, List.forall_mem_cons]
  constructor
  · rintro ⟨hat, hpiece, hfirst, hearlier⟩
    exact ⟨hfirst, hat, hpiece, hearlier⟩
  · rintro ⟨hfirst, hat, hpiece, hearlier⟩
    exact ⟨hat, hpiece, hfirst, hearlier⟩

theorem readSegments_of_spells (path : String) (position : Nat) (rest : List (List Char))
    (h : SpellsIdentifier first) :
    ∃ s : Identifier, s.name.toList = first ∧
      readSegments path position (first :: rest) =
        (readSegments path (position + 1) rest).map (s :: ·) := by
  have hvalid : isIdentifier first = true := (isIdentifier_iff first).mpr h
  have hne : ¬first.isEmpty = true := by
    intro hempty
    rw [List.isEmpty_iff.mp hempty] at h
    exact h
  refine ⟨⟨String.ofList first, by simpa using hvalid⟩, by simp, ?_⟩
  rw [readSegments, if_neg hne, dif_pos hvalid]
  cases readSegments path (position + 1) rest <;> rfl

theorem readSegments_of_faulty (path : String) (position : Nat) (rest : List (List Char))
    (h : ¬SpellsIdentifier first) :
    readSegments path position (first :: rest) = .error (pieceFault path position first) := by
  have hinvalid : ¬isIdentifier first = true := fun hvalid => h ((isIdentifier_iff first).mp hvalid)
  unfold readSegments pieceFault
  by_cases hempty : first = []
  · simp [hempty]
  · simp [hempty, hinvalid]

theorem readSegments_eq_error_iff {pieces : List (List Char)} {fault : PathFault} :
    readSegments path position pieces = .error fault ↔
      ∃ i piece, LeftmostFault pieces i piece ∧ fault = pieceFault path (position + i) piece := by
  induction pieces generalizing position with
  | nil => simp [readSegments, not_leftmostFault_nil]
  | cons first rest ih =>
    by_cases h : SpellsIdentifier first
    · obtain ⟨s, -, hread⟩ := readSegments_of_spells path position rest h
      have htail : readSegments path position (first :: rest) = .error fault ↔
          readSegments path (position + 1) rest = .error fault := by
        rw [hread]
        cases readSegments path (position + 1) rest <;> simp [Except.map]
      rw [htail, ih]
      have hshift : ∀ i, position + 1 + i = position + (i + 1) := fun i => by omega
      constructor
      · rintro ⟨i, piece, hfault, heq⟩
        exact ⟨i + 1, piece, leftmostFault_succ.mpr ⟨h, hfault⟩, hshift i ▸ heq⟩
      · rintro ⟨i, piece, hfault, heq⟩
        cases i with
        | zero => exact absurd h (leftmostFault_zero.mp hfault).2
        | succ i => exact ⟨i, piece, (leftmostFault_succ.mp hfault).2, hshift i ▸ heq⟩
    · rw [readSegments_of_faulty path position rest h]
      constructor
      · intro heq
        exact ⟨0, first, leftmostFault_zero.mpr ⟨rfl, h⟩, (Except.error.inj heq).symm⟩
      · rintro ⟨i, piece, hfault, heq⟩
        cases i with
        | zero =>
          obtain ⟨rfl, -⟩ := leftmostFault_zero.mp hfault
          rw [heq, Nat.add_zero]
        | succ i => exact absurd (leftmostFault_succ.mp hfault).1 h

theorem names_of_readSegments {pieces : List (List Char)} {segments : List Identifier}
    (h : readSegments path position pieces = .ok segments) :
    pieces = segments.map fun segment => segment.name.toList := by
  induction pieces generalizing position segments with
  | nil =>
    obtain rfl : [] = segments := Except.ok.inj h
    rfl
  | cons first rest ih =>
    by_cases hfirst : SpellsIdentifier first
    · obtain ⟨s, hs, hread⟩ := readSegments_of_spells path position rest hfirst
      rw [hread] at h
      cases htail : readSegments path (position + 1) rest with
      | error fault =>
        rw [htail] at h
        cases h
      | ok tail =>
        rw [htail] at h
        obtain rfl : s :: tail = segments := Except.ok.inj h
        rw [List.map_cons, ← ih htail, hs]
    · rw [readSegments_of_faulty path position rest hfirst] at h
      cases h

/-! ### The four outcomes -/

namespace TargetPath

variable {text : String} {target target' : TargetPath}

theorem segments_ofSegments (s : Identifier) (ss : List Identifier) :
    (ofSegments s ss).segments = s :: ss := by
  induction ss generalizing s with
  | nil => rfl
  | cons t ts ih =>
    have htail := ih t
    simp only [segments] at htail
    simp only [ofSegments, segments, List.cons_append, htail]

theorem segments_ne_nil (target : TargetPath) : target.segments ≠ [] := by
  simp [segments]

theorem splitOn_text (target : TargetPath) :
    target.text.toList.splitOn '.' = target.segments.map fun segment => segment.name.toList :=
  splitOn_join target.segments_ne_nil

/-- A text that is not empty is read piece by piece. -/
theorem parse_cases (h : text ≠ "") :
    (∃ fault, readSegments text 0 (text.toList.splitOn '.') = .error fault ∧
      parse text = .error fault) ∨
    ∃ s ss, (text.toList.splitOn '.') = (s :: ss).map (fun segment => segment.name.toList) ∧
      parse text = .ok (ofSegments s ss) := by
  have hempty : ¬text.isEmpty = true := fun hempty => h (String.isEmpty_iff.mp hempty)
  unfold parse
  rw [if_neg hempty, Text.pieces_eq_splitOn]
  cases hread : readSegments text 0 (text.toList.splitOn '.') with
  | error fault => exact .inl ⟨fault, rfl, rfl⟩
  | ok segments =>
    have hnames := names_of_readSegments hread
    cases segments with
    | nil => exact absurd hnames (List.splitOn_ne_nil '.' text.toList)
    | cons s ss => exact .inr ⟨s, ss, hnames, rfl⟩

theorem parse_empty : parse "" = .error .empty :=
  rfl

theorem parse_eq_ok_iff : parse text = .ok target ↔ target.text = text := by
  constructor
  · intro h
    by_cases hempty : text = ""
    · rw [hempty, parse_empty] at h
      cases h
    · rcases parse_cases hempty with ⟨fault, -, hparse⟩ | ⟨s, ss, hnames, hparse⟩
      · rw [hparse] at h
        cases h
      · rw [hparse] at h
        obtain rfl : ofSegments s ss = target := Except.ok.inj h
        have htext : (join (s :: ss)).toList = text.toList := by
          rw [toList_join, ← hnames, List.intercalate_splitOn]
        show join (ofSegments s ss).segments = text
        rw [segments_ofSegments]
        exact String.toList_inj.mp htext
  · rintro rfl
    exact target.parse_text

/-- Paths of one text are one path. -/
theorem text_inj (h : target.text = target'.text) : target = target' := by
  have hparse : parse target.text = .ok target' := parse_eq_ok_iff.mpr h.symm
  exact Except.ok.inj (target.parse_text.symm.trans hparse)

theorem parse_eq_error_iff (h : text ≠ "") {fault : PathFault} :
    parse text = .error fault ↔
      ∃ i piece, LeftmostFault (text.toList.splitOn '.') i piece ∧
        fault = pieceFault text i piece := by
  have hread : parse text = .error fault ↔
      readSegments text 0 (text.toList.splitOn '.') = .error fault := by
    rcases parse_cases h with ⟨fault', hread, hparse⟩ | ⟨s, ss, hnames, hparse⟩
    · simp [hread, hparse]
    · rw [hparse, hnames, readSegments_names]
      simp
  simp only [hread, readSegments_eq_error_iff, Nat.zero_add]

theorem exists_parse_iff :
    (∃ target, parse text = .ok target) ↔
      ∃ names : List String, names ≠ [] ∧ (∀ name ∈ names, SpellsIdentifier name.toList) ∧
        text = ".".intercalate names := by
  constructor
  · rintro ⟨target, h⟩
    refine ⟨target.segments.map Identifier.name, ?_, ?_, ?_⟩
    · simpa using target.segments_ne_nil
    · intro name hname
      obtain ⟨segment, -, rfl⟩ := List.mem_map.mp hname
      exact segment.spells
    · exact (parse_eq_ok_iff.mp h).symm
  · rintro ⟨names, hne, hnames, rfl⟩
    obtain ⟨segments, rfl⟩ := exists_identifiers hnames
    cases segments with
    | nil => exact absurd rfl hne
    | cons s ss => exact ⟨ofSegments s ss, parse_join s ss⟩

theorem parse_eq_empty_iff : parse text = .error .empty ↔ text = "" := by
  constructor
  · intro h
    by_contra hne
    obtain ⟨i, piece, -, hfault⟩ := (parse_eq_error_iff hne).mp h
    exact pieceFault_ne_empty hfault
  · rintro rfl
    exact parse_empty

theorem parse_eq_emptySegment_iff {path : String} {i : Nat} :
    parse text = .error (.emptySegment path i) ↔
      path = text ∧ text ≠ "" ∧ LeftmostFault (text.toList.splitOn '.') i [] := by
  by_cases hne : text = ""
  · simp [hne, parse_empty]
  · rw [parse_eq_error_iff hne]
    constructor
    · rintro ⟨j, piece, hleft, hfault⟩
      obtain ⟨rfl, rfl, rfl⟩ := emptySegment_eq_pieceFault_iff.mp hfault
      exact ⟨rfl, hne, hleft⟩
    · rintro ⟨rfl, -, hleft⟩
      exact ⟨i, [], hleft, emptySegment_eq_pieceFault_iff.mpr ⟨rfl, rfl, rfl⟩⟩

theorem parse_eq_invalidSegment_iff {path segment : String} :
    parse text = .error (.invalidSegment path segment) ↔
      path = text ∧ segment ≠ "" ∧
        ∃ i, LeftmostFault (text.toList.splitOn '.') i segment.toList := by
  have hnil : segment.toList ≠ [] ↔ segment ≠ "" := by simp
  by_cases hne : text = ""
  · subst hne
    constructor
    · intro h
      cases h
    · rintro ⟨-, hsegment, i, hleft⟩
      -- the one piece of the empty text is empty
      have hmem := List.mem_of_getElem? hleft.1
      simp [hsegment] at hmem
  · rw [parse_eq_error_iff hne]
    constructor
    · rintro ⟨i, piece, hleft, hfault⟩
      obtain ⟨rfl, rfl, hpiece⟩ := invalidSegment_eq_pieceFault_iff.mp hfault
      exact ⟨rfl, hnil.mp hpiece, i, hleft⟩
    · rintro ⟨rfl, hsegment, i, hleft⟩
      have hpiece : segment.toList ≠ [] := hnil.mpr hsegment
      exact ⟨i, segment.toList, hleft, invalidSegment_eq_pieceFault_iff.mpr ⟨rfl, rfl, hpiece⟩⟩

/-- A text is read as a path exactly when its pieces are identifiers, and the path has that text;
otherwise the leftmost piece that is none is blamed, unless the text is empty. -/
theorem parse_judges_text (text : String) :
    ((∃ target, parse text = .ok target) ↔
      ∃ names : List String, names ≠ [] ∧ (∀ name ∈ names, SpellsIdentifier name.toList) ∧
        text = ".".intercalate names) ∧
    (∀ target, parse text = .ok target ↔ target.text = text) ∧
    (parse text = .error .empty ↔ text = "") ∧
    (∀ path i, parse text = .error (.emptySegment path i) ↔
      path = text ∧ text ≠ "" ∧ LeftmostFault (text.toList.splitOn '.') i []) ∧
    ∀ path segment, parse text = .error (.invalidSegment path segment) ↔
      path = text ∧ segment ≠ "" ∧
        ∃ i, LeftmostFault (text.toList.splitOn '.') i segment.toList :=
  ⟨exists_parse_iff, fun _ => parse_eq_ok_iff, parse_eq_empty_iff,
    fun _ _ => parse_eq_emptySegment_iff, fun _ _ => parse_eq_invalidSegment_iff⟩

-- of two faults the one further left is told
example : parse "spec.1st..name" = .error (.invalidSegment "spec.1st..name" "1st") := by decide

end TargetPath

end Setters

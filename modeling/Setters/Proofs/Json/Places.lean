import Setters.Json.Reader

/-!
# Places of faults

A place counts the lines and, in the last of them, the bytes of the part of a text that was looked
at: `Place.of_lines`. A fault in the form of a document always has one, and so has one in its
content once the object or array around it is given up. `Placed` says of a reader that it does
this, so that what it refuses is reported with a place: `exists_place_of_readDocument`.
-/

namespace Setters.Json

variable {α β : Type} {line rest : List Char} {text : String}

/-! ### Lines and columns -/

theorem byteCount_cons (c : Char) (cs : List Char) :
    Text.byteCount (c :: cs) = c.utf8Size + Text.byteCount cs :=
  rfl

theorem byteCount_append (cs rest : List Char) :
    Text.byteCount (cs ++ rest) = Text.byteCount cs + Text.byteCount rest := by
  induction cs with
  | nil => simp [Text.byteCount]
  | cons c cs ih => rw [List.cons_append, byteCount_cons, byteCount_cons, ih, Nat.add_assoc]

namespace Place

theorem advance_zero (place : Place) (cs : List Char) : place.advance 0 cs = place := by
  cases cs <;> rfl

theorem advance_newline (place : Place) (bytes : Nat) (rest : List Char) :
    place.advance (1 + bytes) ('\n' :: rest) = advance ⟨place.line + 1, 0⟩ bytes rest := by
  rw [advance, if_neg (by omega), if_pos rfl, Nat.add_sub_cancel_left]

theorem advance_line (place : Place) (hline : '\n' ∉ line) (bytes : Nat) (rest : List Char) :
    place.advance (Text.byteCount line + bytes) (line ++ rest) =
      advance ⟨place.line, place.column + Text.byteCount line⟩ bytes rest := by
  induction line generalizing place with
  | nil => simp [Text.byteCount]
  | cons c cs ih =>
    obtain ⟨hc, hcs⟩ : '\n' ≠ c ∧ '\n' ∉ cs := by simpa using hline
    have hsize := c.utf8Size_pos
    have hleft : c.utf8Size + Text.byteCount cs + bytes - c.utf8Size =
        Text.byteCount cs + bytes := by omega
    have hmin : min (c.utf8Size + Text.byteCount cs + bytes) c.utf8Size = c.utf8Size := by omega
    rw [List.cons_append, byteCount_cons, advance, if_neg (by omega), if_neg (Ne.symm hc), hleft,
      hmin, ih _ hcs, Nat.add_assoc]

theorem advance_lines {lines : List (List Char)} (hlines : ∀ line ∈ lines, '\n' ∉ line)
    (place : Place) (hcolumn : place.column = 0) (bytes : Nat) (rest : List Char) :
    place.advance (Text.byteCount (lines.flatMap (· ++ ['\n'])) + bytes)
        (lines.flatMap (· ++ ['\n']) ++ rest) =
      advance ⟨place.line + lines.length, 0⟩ bytes rest := by
  induction lines generalizing place with
  | nil =>
    obtain ⟨line, column⟩ := place
    obtain rfl : column = 0 := hcolumn
    simp [Text.byteCount]
  | cons line lines ih =>
    obtain ⟨hline, hlines⟩ := List.forall_mem_cons.mp hlines
    have hbytes : Text.byteCount ((line :: lines).flatMap (· ++ ['\n'])) + bytes =
        Text.byteCount line + (1 + (Text.byteCount (lines.flatMap (· ++ ['\n'])) + bytes)) := by
      have hnewline : Text.byteCount ['\n'] = 1 := rfl
      rw [List.flatMap_cons, byteCount_append, byteCount_append, hnewline]
      omega
    rw [hbytes, List.flatMap_cons, List.append_assoc, List.append_assoc, List.singleton_append,
      advance_line _ hline, advance_newline, ih hlines _ rfl, List.length_cons, Nat.add_assoc,
      Nat.add_comm 1]

/-- A place says in which line what is left over begins, and how many bytes stand before it there:
the lines before it end in a newline each, and there is none in its own part. -/
theorem of_lines {lines : List (List Char)} (hlines : ∀ line ∈ lines, '\n' ∉ line)
    (hline : '\n' ∉ line) (rest : List Char) :
    of (lines.flatMap (· ++ ['\n']) ++ (line ++ rest)) (Text.byteCount rest) =
      ⟨1 + lines.length, Text.byteCount line⟩ := by
  have hbytes : Text.byteCount (lines.flatMap (· ++ ['\n']) ++ (line ++ rest)) -
      Text.byteCount rest =
        Text.byteCount (lines.flatMap (· ++ ['\n'])) + (Text.byteCount line + 0) := by
    rw [byteCount_append, byteCount_append]
    omega
  rw [of, hbytes, advance_lines hlines _ rfl, advance_line _ hline, advance_zero, Nat.zero_add]

end Place

/-! ### Faults with a place -/

/-- Whether a stop has a place. -/
def Halt.Placed : Halt → Prop
  | .malformed _ | .content _ _ => True
  | .pending _ _ => False

/-- Whether a reader stops nowhere without a place. -/
def Placed (read : Reader α) : Prop :=
  ∀ cs halt, read cs = .error halt → halt.Placed

theorem Halt.Placed.exists_place {halt : Halt} (h : halt.Placed) (text : List Char) :
    ∃ left, (halt.fault text).place? = some (.of text left) := by
  cases halt with
  | malformed flaw => exact ⟨flaw.left, rfl⟩
  | content fault left => exact ⟨left, rfl⟩
  | pending fault rest => exact h.elim

theorem placed_of_settle {reach : List Char → List Char} {outcome : Except Halt α} {halt : Halt}
    (h : settle reach outcome = .error halt) : halt.Placed := by
  cases outcome with
  | ok a => cases h
  | error other =>
    cases other <;> obtain rfl := Except.error.inj h <;> trivial

theorem placed_of_mismatch {wanted : Wanted} {cs : List Char} {halt : Halt}
    (h : (mismatch wanted cs : Except Halt α) = .error halt) : halt.Placed := by
  rw [mismatch.eq_def] at h
  split at h
  · obtain rfl := Except.error.inj h
    trivial
  · obtain rfl := Except.error.inj h
    trivial
  · split at h <;> obtain rfl := Except.error.inj h <;> trivial

theorem Placed.map {read : Reader α} (h : Placed read) (f : α → β) :
    Placed fun cs => (read cs).map fun (a, rest) => (f a, rest) := by
  intro cs halt hread
  cases hresult : read cs with
  | ok result =>
    simp only [hresult] at hread
    cases hread
  | error other =>
    simp only [hresult] at hread
    obtain rfl := Except.error.inj hread
    exact h cs other hresult

theorem Fault.report_of_place {fault : Fault} {place : Place} (h : fault.place? = some place) :
    fault.report = fault.message ++
      (" at line " ++ toString place.line ++ " column " ++ toString place.column) := by
  rw [report, h]
  rfl

/-- What is refused by a reader that stops at places only has one of them. -/
theorem exists_place_of_readDocument {read : Nat → Reader α} (h : Placed (read maxDepth))
    {fault : Fault} (hread : readDocument read text = .error fault) :
    ∃ left, fault.place? = some (.of text.toList left) := by
  rw [readDocument] at hread
  split at hread
  · rename_i halt hhalt
    obtain rfl := Except.error.inj hread
    exact (h _ halt hhalt).exists_place _
  · split at hread
    · cases hread
    · obtain rfl := Except.error.inj hread
      exact ⟨_, rfl⟩

end Setters.Json

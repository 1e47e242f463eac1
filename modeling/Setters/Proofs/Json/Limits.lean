import Setters.Json.Reader

/-!
# The limit on nesting

The number of levels that are left shows in what a reader makes of a text in one way only: the
text is refused because its brackets nest too deep. `Curbs` says this of two readers, of which the
second one is given more levels, and holds of every step the readers are made of.
-/

namespace Setters.Json

variable {α β σ κ : Type}

/-- Whether an outcome is another one, or the refusal of too many brackets in place of it. -/
def Curbed (outcome outcome' : Except Halt α) : Prop :=
  outcome = outcome' ∨ ∃ left, outcome = malformed ⟨.tooDeep, left⟩

/-- Whether a reader does what another one does, unless too many brackets are open at a time. -/
def Curbs (read read' : Reader α) : Prop :=
  ∀ cs, Curbed (read cs) (read' cs)

theorem Curbed.refl (outcome : Except Halt α) : Curbed outcome outcome :=
  .inl rfl

theorem Curbs.refl (read : Reader α) : Curbs read read :=
  fun cs => .refl (read cs)

theorem Curbed.map {outcome outcome' : Except Halt α} (h : Curbed outcome outcome') (f : α → β) :
    Curbed (outcome.map f) (outcome'.map f) := by
  rcases h with rfl | ⟨left, rfl⟩
  · exact .refl _
  · exact .inr ⟨left, rfl⟩

theorem Curbs.map {read read' : Reader α} (h : Curbs read read') (f : α → β) :
    Curbs (fun cs => (read cs).map fun (a, rest) => (f a, rest))
      (fun cs => (read' cs).map fun (a, rest) => (f a, rest)) :=
  fun cs => (h cs).map _

theorem Curbed.settle {outcome outcome' : Except Halt α} (h : Curbed outcome outcome')
    (reach : List Char → List Char) : Curbed (settle reach outcome) (settle reach outcome') := by
  rcases h with rfl | ⟨left, rfl⟩
  · exact .refl _
  · exact .inr ⟨left, rfl⟩

theorem Curbs.orNull {read read' : Reader α} (h : Curbs read read') :
    Curbs (readOption read) (readOption read') := by
  intro cs
  unfold readOption
  split
  · exact .refl _
  · exact (h _).map _

/-! ### Objects -/

theorem readMembers_curbs {step step' : σ → String → Reader σ}
    (h : ∀ state key, Curbs (step state key) (step' state key)) (fuel : Nat) (first : Bool)
    (state : σ) :
    Curbs (readMembers step fuel first state) (readMembers step' fuel first state) := by
  induction fuel generalizing first state with
  | zero => exact .refl _
  | succ fuel ih =>
    intro cs
    rw [readMembers, readMembers]
    split
    · exact .refl _
    · exact .refl _
    · rename_i key rest _
      rcases h state key rest with heq | ⟨left, hdeep⟩
      · rw [heq]
        split
        · exact .refl _
        · exact ih false _ _
      · rw [hdeep]
        exact .inr ⟨left, rfl⟩

theorem readObject_curbs {step step' : σ → String → Reader σ}
    (h : ∀ state key, Curbs (step state key) (step' state key)) (start : σ) :
    Curbs (readObject step start) (readObject step' start) :=
  fun cs => readMembers_curbs h _ true start cs

/-- What a step does behind the colon tells how it is curbed. -/
theorem readColon_curbs {read read' : Reader α} (h : Curbs read read') :
    Curbs
      (fun cs =>
        match readColon cs with
        | .error halt => .error halt
        | .ok cs => read cs)
      (fun cs =>
        match readColon cs with
        | .error halt => .error halt
        | .ok cs => read' cs) := by
  intro cs
  dsimp only
  split
  · exact .refl _
  · exact h _

/-! ### Arrays -/

theorem readItems_curbs {step step' : σ → Reader σ} (h : ∀ state, Curbs (step state) (step' state))
    (fuel : Nat) (first : Bool) (state : σ) :
    Curbs (readItems step fuel first state) (readItems step' fuel first state) := by
  induction fuel generalizing first state with
  | zero => exact .refl _
  | succ fuel ih =>
    intro cs
    rw [readItems, readItems]
    split
    · exact .refl _
    · exact .refl _
    · rename_i rest _
      rcases h state rest with heq | ⟨left, hdeep⟩
      · rw [heq]
        split
        · exact .refl _
        · exact ih false _ _
      · rw [hdeep]
        exact .inr ⟨left, rfl⟩

theorem readArray_curbs {step step' : σ → Reader σ} (h : ∀ state, Curbs (step state) (step' state))
    (start : σ) : Curbs (readArray step start) (readArray step' start) :=
  fun cs => readItems_curbs h _ true start cs

theorem readRow_curbs {step step' : σ → κ → Reader σ}
    (h : ∀ state key, Curbs (step state key) (step' state key))
    (short : Nat → σ → Except ContentFault σ) (keys : List κ) (count : Nat) (state : σ) :
    Curbs (readRow step short keys count state) (readRow step' short keys count state) := by
  induction keys generalizing count state with
  | nil => exact .refl _
  | cons key keys ih =>
    intro cs
    rw [readRow, readRow]
    split
    · exact .refl _
    · exact .refl _
    · rename_i rest _
      rcases h state key rest with heq | ⟨left, hdeep⟩
      · rw [heq]
        split
        · exact .refl _
        · exact ih (count + 1) _ _
      · rw [hdeep]
        exact .inr ⟨left, rfl⟩

/-! ### Values and documents -/

theorem readValue_curbs {room room' : Nat} (h : room ≤ room') :
    Curbs (readValue room) (readValue room') := by
  induction room generalizing room' with
  | zero =>
    intro cs
    rw [readValue.eq_def 0, readValue.eq_def room']
    dsimp only
    split
    · exact .inr ⟨_, rfl⟩
    · exact .inr ⟨_, rfl⟩
    · exact .refl _
  | succ room ih =>
    obtain ⟨room', rfl⟩ := Nat.exists_eq_add_of_le' h
    have hvalue : Curbs (readValue room) (readValue (room' + room)) := ih (Nat.le_add_left _ _)
    intro cs
    rw [readValue.eq_def (room + 1), readValue.eq_def (room' + (room + 1))]
    dsimp only
    split
    · have hitem := fun items => hvalue.map (· :: items)
      exact (readArray_curbs hitem [] _).map _
    · have hmember := fun members (key : String) =>
        readColon_curbs (hvalue.map fun value => (key, value) :: members)
      exact (readObject_curbs hmember [] _).map _
    · exact .refl _

/-- A document that is read with more levels is read all the same, or nests too deep. -/
theorem readDocument_curbs {read : Nat → Reader α} {room : Nat}
    (h : Curbs (read maxDepth) (read room)) {text : String} {a : α}
    (hread : readDocument (fun _ => read room) text = .ok a) :
    readDocument read text = .ok a ∨
      ∃ place, readDocument read text = .error (.malformed .tooDeep place) := by
  rw [readDocument] at hread ⊢
  rcases h text.toList with heq | ⟨left, hdeep⟩
  · rw [heq]
    exact .inl hread
  · rw [hdeep]
    exact .inr ⟨_, rfl⟩

/-- A document that is read with as many levels as it has, and not with less, is read up to the
limit on nesting and refused for nesting too deep beyond it. -/
theorem readDocument_limit {read : Nat → Reader α}
    (h : ∀ room room', room ≤ room' → Curbs (read room) (read room')) {text : String} {a : α}
    {levels : Nat}
    (hread : ∀ room, readDocument (fun _ => read room) text = .ok a ↔ levels ≤ room) :
    (levels ≤ 127 → readDocument read text = .ok a) ∧
      (127 < levels →
        ∃ place, readDocument read text = .error (.malformed .tooDeep place)) := by
  refine ⟨(hread maxDepth).mpr, fun hdeep => ?_⟩
  -- with the levels it needs the document is read, so only the limit can be what refuses it
  have hfar := (hread levels).mpr (Nat.le_refl levels)
  rcases readDocument_curbs (h maxDepth levels (Nat.le_of_lt hdeep)) hfar with hok | hmalformed
  · have hlevels : levels ≤ maxDepth := (hread maxDepth).mp hok
    exact absurd hlevels (Nat.not_le_of_lt hdeep)
  · exact hmalformed

end Setters.Json

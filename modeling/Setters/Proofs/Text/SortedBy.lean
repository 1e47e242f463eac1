import Mathlib.Data.List.Perm.Basic
import Mathlib.Data.String.Basic

/-!
# Sorting by a text

Things sorted by a text that belongs to each of them. The sort is stable: things of one text are
listed as they were before, `under_sort`. A list whose texts ascend is told by what it lists under
each text, `eq_of_under_eq`, so there is one stable arrangement.

When no two things have one text the texts ascend strictly, and the result is the only ascending
list of the same things.
-/

namespace Setters.Text

variable {α : Type} (key : α → String)

theorem decide_le_trans (a b c : α) (hab : decide (key a ≤ key b)) (hbc : decide (key b ≤ key c)) :
    decide (key a ≤ key c) := by
  rw [decide_eq_true_iff] at hab hbc ⊢
  exact le_trans hab hbc

theorem decide_le_total (a b : α) : (decide (key a ≤ key b) || decide (key b ≤ key a)) = true := by
  rw [Bool.or_eq_true, decide_eq_true_iff, decide_eq_true_iff]
  exact le_total (key a) (key b)

theorem sort_pairwise (items : List α) :
    (items.mergeSort fun a b => decide (key a ≤ key b)).Pairwise fun a b => key a ≤ key b := by
  have hsorted := List.pairwise_mergeSort (decide_le_trans key) (decide_le_total key) items
  exact hsorted.imp fun h => decide_eq_true_iff.mp h

theorem sort_ascending {items : List α} (distinct : (items.map key).Nodup) :
    (items.mergeSort fun a b => decide (key a ≤ key b)).Pairwise fun a b => key a < key b := by
  have hperm := List.mergeSort_perm items fun a b => decide (key a ≤ key b)
  have hne : (items.mergeSort fun a b => decide (key a ≤ key b)).Pairwise
      fun a b => key a ≠ key b :=
    List.pairwise_map.mp ((hperm.map key).nodup_iff.mpr distinct)
  exact (sort_pairwise key items).imp₂ (fun _ _ hle hne => lt_of_le_of_ne hle hne) hne

/-! ### Things of one text -/

/-- The things of one text, in the order in which they are listed. -/
def under (text : String) (items : List α) : List α :=
  items.filter fun item => key item == text

theorem mem_under {text : String} {items : List α} {item : α} :
    item ∈ under key text items ↔ item ∈ items ∧ key item = text := by
  rw [under, List.mem_filter, beq_iff_eq]

theorem under_cons_self (item : α) (items : List α) :
    under key (key item) (item :: items) = item :: under key (key item) items :=
  List.filter_cons_of_pos (beq_self_eq_true (key item))

theorem under_cons_of_ne {text : String} {item : α} (h : key item ≠ text) (items : List α) :
    under key text (item :: items) = under key text items :=
  List.filter_cons_of_neg (by rwa [beq_iff_eq])

/-- Sorting keeps the order of the things of one text. -/
theorem under_sort (items : List α) (text : String) :
    under key text (items.mergeSort fun a b => decide (key a ≤ key b)) = under key text items := by
  have hequal : (under key text items).Pairwise fun a b => decide (key a ≤ key b) := by
    refine List.pairwise_of_forall_mem_list fun a ha b hb => ?_
    rw [((mem_under key).mp ha).2, ((mem_under key).mp hb).2]
    exact decide_eq_true (le_refl text)
  have hkept : (under key text items).Sublist
      (items.mergeSort fun a b => decide (key a ≤ key b)) :=
    List.sublist_mergeSort (decide_le_trans key) (decide_le_total key) hequal List.filter_sublist
  have hsublist := hkept.filter fun item => key item == text
  have hagain : (under key text items).filter (fun item => key item == text) =
      under key text items := by
    rw [under, List.filter_filter]
    simp only [Bool.and_self]
  rw [hagain] at hsublist
  have hperm := (List.mergeSort_perm items fun a b => decide (key a ≤ key b)).filter
    fun item => key item == text
  exact (hsublist.eq_of_length hperm.length_eq.symm).symm

variable {key}

theorem mem_of_under_eq {as bs : List α} (h : ∀ text, under key text as = under key text bs)
    {a : α} (ha : a ∈ as) : a ∈ bs := by
  have hunder : a ∈ under key (key a) bs := by
    rw [← h (key a)]
    exact (mem_under key).mpr ⟨ha, rfl⟩
  obtain ⟨hmem, -⟩ := (mem_under key).mp hunder
  exact hmem

/-- Two lists whose texts ascend are equal when they list the same things under each text. -/
theorem eq_of_under_eq {as bs : List α} (ha : as.Pairwise fun a b => key a ≤ key b)
    (hb : bs.Pairwise fun a b => key a ≤ key b)
    (h : ∀ text, under key text as = under key text bs) : as = bs := by
  induction as generalizing bs with
  | nil =>
    cases bs with
    | nil => rfl
    | cons b bs => cases mem_of_under_eq (fun text => (h text).symm) List.mem_cons_self
  | cons a as ih =>
    cases bs with
    | nil => cases mem_of_under_eq h List.mem_cons_self
    | cons b bs =>
      rw [List.pairwise_cons] at ha hb
      -- each head stands somewhere in the other list, so neither text is less than the other
      have hab : key a ≤ key b := by
        rcases List.mem_cons.mp (mem_of_under_eq (fun text => (h text).symm) List.mem_cons_self)
          with rfl | hmem
        · exact le_refl _
        · exact ha.1 b hmem
      have hba : key b ≤ key a := by
        rcases List.mem_cons.mp (mem_of_under_eq h List.mem_cons_self) with rfl | hmem
        · exact le_refl _
        · exact hb.1 a hmem
      have hkey : key a = key b := le_antisymm hab hba
      have hheads := h (key a)
      rw [under_cons_self, hkey, under_cons_self, List.cons.injEq] at hheads
      obtain rfl := hheads.1
      have hrest : ∀ text, under key text as = under key text bs := by
        intro text
        by_cases htext : key a = text
        · subst htext
          exact hheads.2
        · have hall := h text
          rwa [under_cons_of_ne key htext, under_cons_of_ne key htext] at hall
      rw [ih ha.2 hb.2 hrest]

/-! ### Things of different texts -/

theorem eq_of_ascending_of_perm {as bs : List α} (ha : as.Pairwise fun a b => key a < key b)
    (hb : bs.Pairwise fun a b => key a < key b) (h : as.Perm bs) : as = bs :=
  List.Perm.eq_of_pairwise (fun _ _ _ _ hab hba => absurd hab (lt_asymm hba)) ha hb h

theorem nodup_of_ascending {items : List α} (asc : items.Pairwise fun a b => key a < key b) :
    (items.map key).Nodup :=
  List.pairwise_map.mpr (asc.imp fun hlt => ne_of_lt hlt)

/-- Sorting finds the ascending list of the same things. -/
theorem sort_eq_of_perm {items target : List α}
    (asc : target.Pairwise fun a b => key a < key b) (h : items.Perm target) :
    (items.mergeSort fun a b => decide (key a ≤ key b)) = target := by
  have distinct : (items.map key).Nodup := (h.map key).nodup_iff.mpr (nodup_of_ascending asc)
  exact eq_of_ascending_of_perm (sort_ascending key distinct) asc
    ((List.mergeSort_perm items _).trans h)

end Setters.Text

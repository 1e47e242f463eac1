import Mathlib.Data.List.Basic
import Setters.FileTree

/-!
# What saving does to the files of a tree

Making directories changes no file, and writing changes the one file that the path leads to. So an
attempt to save that a fault stops leaves all files as they were, whatever directories it made
before, and one that goes through leaves the content where the path leads to and every other file
as it was: `trySave_cases`.
-/

namespace Setters.FileTree

variable {tree before after : FileTree} {place other target : FilePlace} {entry : FileEntry}
  {path : FilePath} {content : FileContent}

/-! ### Files -/

def file? (tree : FileTree) (place : FilePlace) : Option FileContent :=
  match tree.find? place with
  | some (.file content) => some content
  | _ => none

def SameFiles (before after : FileTree) : Prop :=
  ∀ place, after.file? place = before.file? place

/-- Whether a tree has the files of another one, but for the one that a path leads to from a
directory, which holds the content. -/
def Gains (before after : FileTree) (place : FilePlace) (path : FilePath)
    (content : FileContent) : Prop :=
  ∃ target, after.locate place path = .ok target ∧ after.file? target = some content ∧
    ∀ other, other ≠ target → after.file? other = before.file? other

theorem SameFiles.refl (tree : FileTree) : tree.SameFiles tree := by
  intro place
  rfl

theorem SameFiles.trans {middle : FileTree} (h : before.SameFiles middle)
    (h' : middle.SameFiles after) : before.SameFiles after := by
  intro place
  rw [h' place, h place]

theorem SameFiles.gains {middle : FileTree} (h : before.SameFiles middle)
    (h' : middle.Gains after place path content) : before.Gains after place path content := by
  obtain ⟨target, hlocate, hfile, hothers⟩ := h'
  refine ⟨target, hlocate, hfile, ?_⟩
  intro other hne
  rw [hothers other hne, h other]

/-! ### Putting an entry -/

theorem find?_of_ne_nil (tree : FileTree) (h : place ≠ []) :
    tree.find? place = tree.entries.lookup place := by
  cases place with
  | nil => exact absurd rfl h
  | cons name names => rfl

theorem lookup_filter_self (entries : List (FilePlace × FileEntry)) (place : FilePlace) :
    (entries.filter fun entry => entry.1 != place).lookup place = none := by
  rw [List.lookup_eq_none_iff]
  intro entry hmem
  have hne := (List.mem_filter.mp hmem).2
  rwa [bne_comm] at hne

theorem lookup_filter_of_ne (entries : List (FilePlace × FileEntry)) (h : other ≠ place) :
    (entries.filter fun entry => entry.1 != place).lookup other = entries.lookup other := by
  induction entries with
  | nil => rfl
  | cons entry rest ih =>
    by_cases hentry : entry.1 = place
    · have hother : (other == entry.1) = false := by simpa [hentry] using h
      rw [List.filter_cons_of_neg (by simpa using hentry), ih, List.lookup_cons, hother]
    · rw [List.filter_cons_of_pos (by simpa using hentry), List.lookup_cons, List.lookup_cons, ih]

theorem find?_put_self (tree : FileTree) (entry : FileEntry) (h : place ≠ []) :
    (tree.put place entry).find? place = some entry := by
  rw [find?_of_ne_nil _ h, put, List.lookup_append, lookup_filter_self, Option.none_or,
    List.lookup_cons_self]

theorem find?_put_of_ne (tree : FileTree) (entry : FileEntry) (h : other ≠ place) :
    (tree.put place entry).find? other = tree.find? other := by
  by_cases hroot : other = []
  · rw [hroot]
    rfl
  · have hlast : [(place, entry)].lookup other = none := by
      rw [List.lookup_cons, beq_eq_false_iff_ne.mpr h]
      rfl
    rw [find?_of_ne_nil _ hroot, find?_of_ne_nil _ hroot, put, List.lookup_append,
      lookup_filter_of_ne _ h, hlast, Option.or_none]

theorem ne_nil_of_find? (h : tree.find? place ≠ some .directory) : place ≠ [] := by
  rintro rfl
  exact h rfl

theorem file?_put_of_ne (tree : FileTree) (entry : FileEntry) (h : other ≠ place) :
    (tree.put place entry).file? other = tree.file? other := by
  rw [file?, find?_put_of_ne tree entry h, file?]

/-- A directory that is made where nothing stood changes no file. -/
theorem sameFiles_put_directory (h : tree.find? place = none) :
    tree.SameFiles (tree.put place .directory) := by
  intro other
  by_cases hother : other = place
  · have hnot : tree.find? place ≠ some .directory := by simp [h]
    simp only [hother, file?, find?_put_self tree _ (ne_nil_of_find? hnot), h]
  · exact file?_put_of_ne tree _ hother

/-! ### Making directories -/

/-- However far the making of directories comes, all files stay as they are. -/
theorem sameFiles_tryDirectories (tree : FileTree) (place : FilePlace) (names : List String) :
    tree.SameFiles (tree.tryDirectories place names).tree := by
  induction names generalizing tree place with
  | nil => exact SameFiles.refl tree
  | cons name names ih =>
    rw [tryDirectories]
    split
    · exact SameFiles.refl tree
    · dsimp only
      split
      · exact ih tree (step place name)
      · exact SameFiles.refl tree
      · rename_i hnone
        exact (sameFiles_put_directory hnone).trans (ih _ _)

/-! ### Writing -/

/-- Names that could be followed still lead to the same place once an entry is put where no
directory stood: none of them starts from there. -/
theorem follow_put (htarget : tree.find? target ≠ some .directory) {names : List String}
    (h : tree.follow place names = .ok other) :
    (tree.put target entry).follow place names = .ok other := by
  induction names generalizing place with
  | nil => exact h
  | cons name names ih =>
    rw [follow] at h ⊢
    cases hfind : tree.find? place with
    | none =>
      rw [hfind] at h
      cases h
    | some found =>
      cases found with
      | file content =>
        rw [hfind] at h
        cases h
      | directory =>
        have hne : place ≠ target := by
          rintro rfl
          exact htarget hfind
        rw [hfind] at h
        rw [find?_put_of_ne tree entry hne, hfind]
        dsimp only at h ⊢
        split at h
        · cases h
        · rename_i hsize
          rw [if_neg hsize]
          exact ih h

theorem locate_put (htarget : tree.find? target ≠ some .directory)
    (h : tree.locate place path = .ok other) :
    (tree.put target entry).locate place path = .ok other := by
  rw [locate] at h ⊢
  cases hstart : start place path with
  | error fault =>
    rw [hstart] at h
    cases h
  | ok first =>
    rw [hstart] at h
    exact follow_put htarget h

/-- The file that is written is where its path leads to afterwards. -/
theorem gains_write (h : tree.write place path content = .ok after) :
    tree.Gains after place path content := by
  rw [write] at h
  cases hlocate : tree.locate place path with
  | error fault =>
    rw [hlocate] at h
    cases h
  | ok target =>
    rw [hlocate] at h
    dsimp only at h
    split at h
    · cases h
    · rename_i htarget
      obtain rfl := Except.ok.inj h
      have hroot : target ≠ [] := ne_nil_of_find? htarget
      refine ⟨target, locate_put htarget hlocate, ?_, fun other hne => file?_put_of_ne tree _ hne⟩
      rw [file?, find?_put_self tree _ hroot]

/-! ### Saving -/

/-- An attempt to save that a fault stops changes no file. One that goes through leaves the content
where the path leads to and changes no other file. -/
theorem trySave_cases (tree : FileTree) (place : FilePlace) (path : FilePath)
    (content : FileContent) :
    (∃ after fault, tree.trySave place path content = ⟨after, some fault⟩ ∧
        tree.SameFiles after) ∨
      ∃ after, tree.trySave place path content = ⟨after, none⟩ ∧
        tree.Gains after place path content := by
  rw [trySave]
  cases start place path with
  | error fault => exact .inl ⟨tree, fault, rfl, SameFiles.refl tree⟩
  | ok first =>
    have hmade := sameFiles_tryDirectories tree first path.parentNames
    dsimp only
    generalize tree.tryDirectories first path.parentNames = attempt at hmade
    obtain ⟨middle, stopped⟩ := attempt
    cases stopped with
    | some fault => exact .inl ⟨middle, fault, rfl, hmade⟩
    | none =>
      dsimp only
      cases hwrite : middle.write place path content with
      | error fault => exact .inl ⟨middle, fault, rfl, hmade⟩
      | ok after => exact .inr ⟨after, rfl, hmade.gains (gains_write hwrite)⟩

end Setters.FileTree

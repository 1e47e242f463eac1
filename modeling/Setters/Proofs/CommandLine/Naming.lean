import Setters.Proofs.CommandLine.Compiling

/-!
# Schema files and the names they lend

The name of a file says in which format its schema is, and lends its stem to the root declaration.
So a file that is compiled always has a stem to lend, and the name that stands in for a missing one
is left to the standard input: `format_and_name_agree`.
-/

namespace Setters

variable {session : Session} {job : CompileJob}

theorem Expr.name_uncommented (tree : Expr) : tree.uncommented.name = tree.name := by
  cases tree <;> rfl

theorem name_of_compile {schema : Schema} {name : String} {tree : Expr}
    (h : schema.compile name = .ok tree) : tree.uncommented.name = name := by
  obtain ⟨-, rfl⟩ := Schema.compile_eq_ok_iff.mp h
  rw [Expr.name_uncommented, Schema.declaration, Expr.name_ofGroup]

/-- A name that is lent is that of the standard input, or the stem of the file. -/
theorem LendsName.cases {argument name : String} (h : LendsName argument name) :
    (argument = "-" → name = "root") ∧
      (argument ≠ "-" → ∃ format, (FilePath.mk argument).IsSchemaFile name format) := by
  rcases h with ⟨hinput, rfl⟩ | ⟨format, hfile⟩
  · exact ⟨fun _ => rfl, fun hne => absurd hinput hne⟩
  · exact ⟨fun hinput => absurd hinput (ne_hyphen_of_isSchemaFile hfile), fun _ => ⟨format, hfile⟩⟩

/-- A file is refused for its name exactly when that is no stem with the suffix of a format,
whatever files there are. Otherwise it is refused for want of a text, or its text is read as JSON
or as TOML, as the suffix says. What is compiled under no given name has the stem as its name, or
`root` if it is the standard input. -/
theorem format_and_name_agree :
    (∀ (tree : FileTree) (place : FilePlace) (path other : FilePath),
      Schema.load (tree.read place) path = .error (.unsupportedFormat other) ↔
        other = path ∧ ¬∃ stem format, path.IsSchemaFile stem format) ∧
    (∀ (tree : FileTree) (place : FilePlace) (path : FilePath) (stem : String)
        (format : SchemaFormat), path.IsSchemaFile stem format →
      (¬∃ text, tree.HoldsText place path text) →
      ∃ fault, Schema.load (tree.read place) path = .error (.unreadable path fault)) ∧
    (∀ (tree : FileTree) (place : FilePlace) (path : FilePath) (stem text : String),
      tree.HoldsText place path text →
      (path.IsSchemaFile stem .json →
        Schema.load (tree.read place) path = (Schema.ofJsonText text).mapError .json) ∧
      (path.IsSchemaFile stem .toml →
        Schema.load (tree.read place) path = (Schema.ofTomlText text).mapError (.toml text))) ∧
    (∀ bytes text, FileContent.ofBytes bytes = .text text ↔ bytes = text.toUTF8) ∧
    ∀ (session : Session) (arguments : List String) (job : CompileJob),
      job.SpelledBy arguments → job.name = none → (session.run arguments).status.code = 0 →
      ∃ tree text, job.layout.Renders tree text ∧
        (session.run arguments).Shows session text job.out ∧
        (job.schema = "-" → tree.uncommented.name = "root") ∧
        (job.schema ≠ "-" → ∃ stem format, (FilePath.mk job.schema).IsSchemaFile stem format ∧
          tree.uncommented.name = stem) := by
  refine ⟨?_, ?_, ?_, fun bytes text => FileContent.ofBytes_eq_text_iff, ?_⟩
  · intro tree place path other
    exact Schema.load_eq_unsupported_iff (tree.read place)
  · intro tree place path stem format hfile hno
    cases hread : tree.read place path with
    | ok text => exact absurd ⟨text, FileTree.read_eq_ok_iff.mp hread⟩ hno
    | error fault => exact ⟨fault, Schema.load_eq_unreadable hfile hread⟩
  · intro tree place path stem text htext
    have hread := FileTree.read_eq_ok_iff.mpr htext
    constructor
    · intro hfile
      exact (Schema.load_eq_ofText hfile hread).trans (Schema.ofText_json text)
    · intro hfile
      exact (Schema.load_eq_ofText hfile hread).trans (Schema.ofText_toml text)
  · intro session arguments job hspelled hname hcode
    rw [run_of_arguments (ofArguments_compile_iff.mpr hspelled)] at hcode ⊢
    obtain ⟨schema, name, tree, text, -, hnames, hcompile, hrender, hshows⟩ :=
      (runCommand_compile_allOrNothing session job).done hcode
    have hlends : LendsName job.schema name := by
      rcases hnames with hgiven | ⟨-, hlends⟩
      · rw [hname] at hgiven
        cases hgiven
      · exact hlends
    obtain ⟨hinput, hfile⟩ := hlends.cases
    refine ⟨tree, text, hrender, hshows, ?_⟩
    rw [name_of_compile hcompile]
    refine ⟨hinput, fun hne => ?_⟩
    obtain ⟨format, hformat⟩ := hfile hne
    exact ⟨name, format, hformat, rfl⟩

/-- A path to a schema file with more in it than it needs. -/
def podPath : FilePath :=
  ⟨".//pod.json"⟩

theorem podPath_isSchemaFile : podPath.IsSchemaFile "pod" .json :=
  ⟨by decide, [".", ""], [], by decide, by decide, by simp, by decide, by decide, by decide⟩

theorem not_holdsText_empty (text : String) : ¬FileTree.empty.HoldsText [] podPath text := by
  have hlocate : FileTree.empty.locate [] podPath = .ok ["pod.json"] := by decide
  rintro ⟨target, htarget, hfile⟩
  rw [hlocate] at htarget
  obtain rfl := Except.ok.inj htarget
  cases hfile

theorem podPath_spelled :
    (CompileJob.mk ".//pod.json" none none .pretty).SpelledBy ["compile", ".//pod.json"] :=
  ofArguments_compile_iff.mp (by decide +kernel)

/-- A directory with an empty document, which is a schema without fields in the one format. -/
def bareTree : FileTree :=
  ⟨[(["bare.toml"], .file (.text ""))]⟩

theorem bareTree_holdsText : bareTree.HoldsText [] ⟨"bare.toml"⟩ "" :=
  ⟨["bare.toml"], by decide, rfl⟩

/-- The file is read where it stands and cannot be read where it does not; the tree that it is
compiled to has its stem as its name. A file with the other suffix is read in the other format. -/
theorem podPath_lends_stem :
    podPath.IsSchemaFile "pod" .json ∧
      (∃ text, podSession.files.HoldsText [] podPath text ∧
        Schema.load (podSession.files.read []) podPath =
          (Schema.ofJsonText text).mapError .json) ∧
      Schema.load (bareTree.read []) ⟨"bare.toml"⟩ = (Schema.ofTomlText "").mapError (.toml "") ∧
      (¬∃ text, FileTree.empty.HoldsText [] podPath text) ∧
      (∃ fault, Schema.load (FileTree.empty.read []) podPath = .error (.unreadable podPath fault)) ∧
      (podSession.run ["compile", ".//pod.json"]).status.code = 0 ∧
      ∃ tree text stem format, Layout.pretty.Renders tree text ∧
        (podSession.run ["compile", ".//pod.json"]).Shows podSession text none ∧
        podPath.IsSchemaFile stem format ∧ tree.uncommented.name = stem := by
  obtain ⟨-, hunreadable, hloads, -, hcompile⟩ := format_and_name_agree
  have hno : ¬∃ text, FileTree.empty.HoldsText [] podPath text := by
    rintro ⟨text, htext⟩
    exact not_holdsText_empty text htext
  have hcode : (podSession.run ["compile", ".//pod.json"]).status.code = 0 := by decide +kernel
  have hholds : podSession.files.HoldsText [] podPath _ := ⟨["pod.json"], by decide, rfl⟩
  obtain ⟨hjson, -⟩ := hloads podSession.files [] podPath "pod" _ hholds
  obtain ⟨-, htoml⟩ := hloads bareTree [] ⟨"bare.toml"⟩ "bare" _ bareTree_holdsText
  have hbare : (FilePath.mk "bare.toml").IsSchemaFile "bare" .toml :=
    ⟨by decide, [], [], by decide, by decide, by simp, by decide, by decide, by decide⟩
  obtain ⟨tree, text, hrender, hshows, -, hstem⟩ :=
    hcompile podSession ["compile", ".//pod.json"] _ podPath_spelled rfl hcode
  obtain ⟨stem, format, hfile, hname⟩ := hstem (by decide)
  exact ⟨podPath_isSchemaFile, ⟨_, hholds, hjson podPath_isSchemaFile⟩, htoml hbare, hno,
    hunreadable .empty [] podPath "pod" .json podPath_isSchemaFile hno, hcode, tree, text, stem,
    format, hrender, hshows, hfile, hname⟩

end Setters

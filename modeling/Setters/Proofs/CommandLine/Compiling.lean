import Setters.Proofs.CommandLine.Arguments
import Setters.Proofs.CommandLine.Loading
import Setters.Proofs.Declarations

/-!
# What comes of a compile job

A job either fails, and then it prints nothing and leaves every file as it was, or it shows the
whole text of a compiled tree in one place: printed, or in the file that was asked for.
`run_compile_allOrNothing` says so of every command line that is a way of writing a job, and of the
schema that is held where the job's argument leads to (sections 10.5 and 10.6 of the
specification).

`runCommand_compile` is the step that all of it rests on: the two ways in which a job can end, with
what each leaves behind.
-/

namespace Setters

/-- Whether an argument lends a name to the root declaration: the stem of a file, or the name that
stands in for it where the schema comes from the standard input. -/
def LendsName (argument name : String) : Prop :=
  argument = "-" ∧ name = "root" ∨ ∃ format, (FilePath.mk argument).IsSchemaFile name format

def CompileJob.Names (job : CompileJob) (name : String) : Prop :=
  job.name = some name ∨ job.name = none ∧ LendsName job.schema name

def Layout.Renders : Layout → Expr → String → Prop
  | .pretty, tree, text => text = tree.toJson.pretty
  | .compact, tree, text => text = tree.toJson.compact

/-- Whether a result shows a text and changes nothing else: printed on a line of its own where no
file is asked for, else in that file alone. -/
def Result.Shows (result : Result) (session : Session) (text : String) :
    Option FilePath → Prop
  | none => result.output = text ++ "\n" ∧ session.files.SameFiles result.files
  | some path =>
    result.output = "" ∧ session.files.Gains result.files session.place path (.text text)

/-- All that may come of a job. A job that fails prints nothing and changes no file. One that
succeeds has loaded a schema and compiled it under the job's name, and shows the text of the tree
in the job's layout. Where no file is asked for, a job succeeds exactly when there is a schema to
load and it is valid. -/
structure Session.AllOrNothing (session : Session) (job : CompileJob) (result : Result) :
    Prop where
  failed : result.status.code ≠ 0 →
    result.output = "" ∧ session.files.SameFiles result.files
  done : result.status.code = 0 →
    ∃ schema name tree text, session.Loads job.schema schema ∧ job.Names name ∧
      schema.compile name = .ok tree ∧ job.layout.Renders tree text ∧
      result.Shows session text job.out
  judged : job.out = none →
    (result.status.code = 0 ↔
      ∃ schema, session.Loads job.schema schema ∧ schema.validate = .ok ())

variable {session : Session} {job : CompileJob} {schema : Schema} {tree : Expr}
  {argument text : String}

/-! ### The text of a job -/

theorem Layout.render_eq_iff (layout : Layout) (tree : Expr) :
    layout.render tree = text ↔ layout.Renders tree text := by
  cases layout with
  | pretty => exact eq_comm
  | compact => exact eq_comm

/-- The name of the root declaration: the given one, or the one that the source lends. -/
def CompileJob.rootName (job : CompileJob) : String :=
  job.name.getD (SchemaSource.ofArgument job.schema).name

/-- What leads to a schema lends a name. -/
theorem lendsName_of_loads (h : session.Loads argument schema) :
    LendsName argument (SchemaSource.ofArgument argument).name := by
  obtain ⟨format, text, hoffers, -⟩ := h
  cases hoffers with
  | input hinput => exact .inl ⟨rfl, rfl⟩
  | @file _ stem _ _ hfile htext =>
    have hstem := (ofPath?_of_isSchemaFile hfile).2
    have hname : (SchemaSource.ofArgument argument).name = stem := by
      rw [SchemaSource.ofArgument_of_ne (ne_hyphen_of_isSchemaFile hfile), SchemaSource.name, hstem,
        Option.getD_some]
    rw [hname]
    exact .inr ⟨format, hfile⟩

theorem names_rootName (h : session.Loads job.schema schema) : job.Names job.rootName := by
  rw [CompileJob.rootName]
  cases hname : job.name with
  | some name => exact .inl hname
  | none => exact .inr ⟨hname, lendsName_of_loads h⟩

def Session.textOf (session : Session) (job : CompileJob) : Except SchemaFault String :=
  job.text (session.files.read session.place) session.input

theorem textOf_eq_ok_iff :
    session.textOf job = .ok text ↔
      ∃ schema tree, session.Loads job.schema schema ∧
        schema.compile job.rootName = .ok tree ∧ job.layout.Renders tree text := by
  have hload : (SchemaSource.ofArgument job.schema).load (session.files.read session.place)
      session.input = session.load job.schema := rfl
  have hname : job.name.getD (SchemaSource.ofArgument job.schema).name = job.rootName := rfl
  rw [Session.textOf, CompileJob.text]
  simp only [hload, hname, ← load_eq_ok_iff]
  cases session.load job.schema with
  | error fault => simp
  | ok schema =>
    cases hcompile : schema.compile job.rootName with
    | error fault => simp [hcompile]
    | ok tree => simp [hcompile, Layout.render_eq_iff]

/-- There is a text exactly where there is a schema to load and it is valid. -/
theorem exists_textOf_iff (session : Session) (job : CompileJob) :
    (∃ text, session.textOf job = .ok text) ↔
      ∃ schema, session.Loads job.schema schema ∧ schema.validate = .ok () := by
  constructor
  · rintro ⟨text, htext⟩
    obtain ⟨schema, tree, hload, hcompile, -⟩ := textOf_eq_ok_iff.mp htext
    exact ⟨schema, hload, (Schema.compile_eq_ok_iff.mp hcompile).1⟩
  · rintro ⟨schema, hload, hvalid⟩
    have hcompile : schema.compile job.rootName = .ok (schema.declaration job.rootName) :=
      Schema.compile_eq_ok_iff.mpr ⟨hvalid, rfl⟩
    have hrender := (job.layout.render_eq_iff (schema.declaration job.rootName)).mp rfl
    exact ⟨_, textOf_eq_ok_iff.mpr ⟨schema, _, hload, hcompile, hrender⟩⟩

/-! ### How a job ends -/

/-- A text that is to be saved is in its file at the end, or no file has changed. -/
theorem settle_saved (session : Session) (path : FilePath) (text : String) :
    let result := session.settle ⟨.success, "", some (path, text), none⟩
    result.output = "" ∧
      (result.status = .failure ∧ session.files.SameFiles result.files ∨
        result.status = .success ∧
          session.files.Gains result.files session.place path (.text text)) := by
  dsimp only [Session.settle]
  obtain ⟨after, fault, hsave, hsame⟩ | ⟨after, hsave, hgains⟩ :=
    session.files.trySave_cases session.place path (.text text)
  · rw [hsave]
    exact ⟨rfl, .inl ⟨rfl, hsame⟩⟩
  · rw [hsave]
    exact ⟨rfl, .inr ⟨rfl, hgains⟩⟩

/-- A job ends in one of two ways. Where no file is asked for, it fails only for want of a text. -/
theorem runCommand_compile (session : Session) (job : CompileJob) :
    let result := session.runCommand (.compile job)
    (result.status = .failure ∧ result.output = "" ∧ session.files.SameFiles result.files ∧
        (job.out = none → ∀ text, session.textOf job ≠ .ok text)) ∨
      result.status = .success ∧
        ∃ text, session.textOf job = .ok text ∧ result.Shows session text job.out := by
  have hsame := FileTree.SameFiles.refl session.files
  have hrun : session.runCommand (.compile job) =
      session.settle (job.run (session.files.read session.place) session.input) := rfl
  have htext : job.text (session.files.read session.place) session.input =
      session.textOf job := rfl
  rw [hrun, CompileJob.run, htext]
  cases session.textOf job with
  | error fault => exact .inl ⟨rfl, rfl, hsame, fun _ text h => nomatch h⟩
  | ok text =>
    cases hout : job.out with
    | none => exact .inr ⟨rfl, text, rfl, rfl, hsame⟩
    | some path =>
      obtain ⟨houtput, ⟨hstatus, hfiles⟩ | ⟨hstatus, hfiles⟩⟩ := settle_saved session path text
      · exact .inl ⟨hstatus, houtput, hfiles, fun h => nomatch h⟩
      · exact .inr ⟨hstatus, text, rfl, houtput, hfiles⟩

theorem runCommand_compile_allOrNothing (session : Session) (job : CompileJob) :
    session.AllOrNothing job (session.runCommand (.compile job)) := by
  obtain ⟨hstatus, houtput, hfiles, hnoText⟩ | ⟨hstatus, text, htext, hshows⟩ :=
    runCommand_compile session job
  · refine ⟨fun _ => ⟨houtput, hfiles⟩, fun hcode => ?_, fun hout => ?_⟩
    · rw [hstatus] at hcode
      cases hcode
    · rw [← exists_textOf_iff session job, hstatus]
      constructor
      · intro hcode
        cases hcode
      · rintro ⟨text, htext⟩
        exact absurd htext (hnoText hout text)
  · refine ⟨fun hcode => ?_, fun _ => ?_, fun hout => ?_⟩
    · rw [hstatus] at hcode
      exact absurd rfl hcode
    · obtain ⟨schema, tree, hload, hcompile, hrender⟩ := textOf_eq_ok_iff.mp htext
      exact ⟨schema, _, tree, text, hload, names_rootName hload, hcompile, hrender, hshows⟩
    · rw [← exists_textOf_iff session job, hstatus]
      exact ⟨fun _ => ⟨text, htext⟩, fun _ => rfl⟩

theorem run_of_arguments {arguments : List String} {command : Command}
    (h : Command.ofArguments arguments = some command) (session : Session) :
    session.run arguments = session.runCommand command := by
  rw [Session.run, h]

/-- The command lines that are taken for a job are the ways of writing it, and of each comes the
whole job or nothing. -/
theorem run_compile_allOrNothing (session : Session) (job : CompileJob)
    (arguments : List String) :
    (Command.ofArguments arguments = some (.compile job) ↔ job.SpelledBy arguments) ∧
      (job.SpelledBy arguments → session.AllOrNothing job (session.run arguments)) := by
  refine ⟨ofArguments_compile_iff, fun hspelled => ?_⟩
  rw [run_of_arguments (ofArguments_compile_iff.mpr hspelled)]
  exact runCommand_compile_allOrNothing session job

/-- A directory with a schema, one without fields, and another file. -/
def podSession : Session where
  files := ⟨[(["pod.json"], .file (.text
    ("\x7b\"fields\":\x7b\"spec\":\x7b\"fields\":\x7b\"image\":" ++
      "\x7b\"parameter\":\"tag\",\"type\":\"object\",\"target\":\"a.image\"\x7d\x7d\x7d\x7d\x7d"))),
    (["bare.json"], .file (.text "\x7b\x7d")), (["notes"], .file (.text "to do"))]⟩
  place := []
  input := .text ""

def savingArguments : List String :=
  ["compile", "-nsvc", "pod.json", "-o", "d/../tree.json", "--compact"]

def printingArguments : List String :=
  ["compile", "--name=", "--", "pod.json"]

def stuckArguments : List String :=
  ["compile", "pod.json", "--name", "svc", "--out=notes/tree.json"]

/-- Two jobs on the schema without fields, one with a name of its own and one with the name of the
file. A job that saves its text beside a directory it had to make, one that prints its text, and
one whose file would have to lie below another file. -/
theorem run_compile_podSession :
    (podSession.run ["compile", "--name", "svc", "--compact", "bare.json"]).output =
        "\x7b\"kind\":\"object\",\"name\":\"svc\",\"children\":[]\x7d\n" ∧
      (podSession.run ["compile", "bare.json"]).output =
        "\x7b\n  \"kind\": \"object\",\n  \"name\": \"bare\",\n  \"children\": []\n\x7d\n" ∧
      (podSession.run savingArguments).status.code = 0 ∧
      podSession.AllOrNothing ⟨"pod.json", some "svc", some ⟨"d/../tree.json"⟩, .compact⟩
        (podSession.run savingArguments) ∧
      (podSession.run printingArguments).status.code = 0 ∧
      podSession.AllOrNothing ⟨"pod.json", some "", none, .pretty⟩
        (podSession.run printingArguments) ∧
      (podSession.run stuckArguments).status.code = 1 ∧
      podSession.AllOrNothing ⟨"pod.json", some "svc", some ⟨"notes/tree.json"⟩, .pretty⟩
        (podSession.run stuckArguments) := by
  obtain ⟨hsaving, hsaved⟩ := run_compile_allOrNothing podSession
    ⟨"pod.json", some "svc", some ⟨"d/../tree.json"⟩, .compact⟩ savingArguments
  obtain ⟨hprinting, hprinted⟩ := run_compile_allOrNothing podSession
    ⟨"pod.json", some "", none, .pretty⟩ printingArguments
  obtain ⟨hstuck, hfailed⟩ := run_compile_allOrNothing podSession
    ⟨"pod.json", some "svc", some ⟨"notes/tree.json"⟩, .pretty⟩ stuckArguments
  refine ⟨by decide +kernel, by decide +kernel, by decide +kernel, hsaved ?_, by decide +kernel,
    hprinted ?_, by decide +kernel, hfailed ?_⟩
  · exact hsaving.mp (by decide +kernel)
  · exact hprinting.mp (by decide +kernel)
  · exact hstuck.mp (by decide +kernel)

end Setters

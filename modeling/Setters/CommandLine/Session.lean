import Setters.CommandLine.Help
import Setters.Compilation
import Setters.Expr.JsonForm
import Setters.Json.Printer
import Setters.Schema.Load

/-!
# Running commands

What a command prints and which file it writes, given a way to read files and the standard
input. A command that fails writes nothing; `compile` prints nothing then either, `validate`
prints one line for each schema all the same.

`Session.run` carries a command line out on a tree of files (section 10.6 of the specification).
-/

namespace Setters

abbrev ReadFile : Type :=
  FilePath → Except FileFault String

/-! ### Schemas of a command -/

inductive SchemaSource where
  | input
  | file (path : FilePath)
deriving DecidableEq

/-- A lone hyphen names the standard input. -/
def SchemaSource.ofArgument (argument : String) : SchemaSource :=
  if argument = "-" then .input else .file ⟨argument⟩

def defaultName : String :=
  "root"

/-- The name that a source lends to its declaration (`default_name`): the stem of the file. -/
def SchemaSource.name : SchemaSource → String
  | .input => defaultName
  | .file path => path.stem?.getD defaultName

/-- The schema of a source (`load`); the standard input is a JSON text. -/
def SchemaSource.load (read : ReadFile) (input : FileContent) :
    SchemaSource → Except LoadFault Schema
  | .input =>
    match input with
    | .text text => Schema.ofText .json text
    | .binary _ => .error .notText
  | .file path => Schema.load read path

/-- The standard input once a source has been read. -/
def SchemaSource.inputAfter (input : FileContent) : SchemaSource → FileContent
  | .input => .text ""
  | .file _ => input

/-- Why a command refuses a schema. -/
inductive SchemaFault where
  | load (fault : LoadFault)
  | invalid (fault : ValidationFault)
deriving DecidableEq

def SchemaFault.message : SchemaFault → String
  | .load fault => fault.report
  | .invalid fault => fault.message

/-! ### Outcomes -/

inductive ExitStatus where
  | success
  | failure
  /-- The arguments spell no command. -/
  | usage
deriving DecidableEq

def ExitStatus.code : ExitStatus → Nat
  | .success => 0
  | .failure => 1
  | .usage => 2

/-- What a command gives: its status, what it prints, the file it writes, and what it has to
say beside. -/
structure Outcome where
  status : ExitStatus
  output : String
  saved : Option (FilePath × String)
  complaint : Option String
deriving DecidableEq

def Outcome.failed (complaint : String) : Outcome :=
  ⟨.failure, "", none, some complaint⟩

def Outcome.misused : Outcome :=
  ⟨.usage, "", none, some
    "usage: compile SCHEMA [-n NAME] [-o OUT] [--compact] | validate SCHEMA..."⟩

def Layout.render (layout : Layout) (tree : Expr) : String :=
  match layout with
  | .pretty => tree.toJson.pretty
  | .compact => tree.toJson.compact

def CompileJob.text (job : CompileJob) (read : ReadFile) (input : FileContent) :
    Except SchemaFault String :=
  let source := SchemaSource.ofArgument job.schema
  match source.load read input with
  | .error fault => .error (.load fault)
  | .ok schema =>
    match schema.compile (job.name.getD source.name) with
    | .error fault => .error (.invalid fault)
    | .ok tree => .ok (job.layout.render tree)

def CompileJob.run (job : CompileJob) (read : ReadFile) (input : FileContent) : Outcome :=
  match job.text read input with
  | .error fault => .failed fault.message
  | .ok text =>
    match job.out with
    | none => ⟨.success, text ++ "\n", none, none⟩
    | some path => ⟨.success, "", some (path, text), none⟩

def SchemaSource.check (read : ReadFile) (input : FileContent) (source : SchemaSource) :
    Except SchemaFault Unit :=
  match source.load read input with
  | .error fault => .error (.load fault)
  | .ok schema => schema.validate.mapError .invalid

def verdicts (read : ReadFile) (input : FileContent) :
    List String → List (String × Except SchemaFault Unit)
  | [] => []
  | argument :: rest =>
    let source := SchemaSource.ofArgument argument
    -- the input is gone once it has been read, so a second hyphen finds the empty text
    (argument, source.check read input) :: verdicts read (source.inputAfter input) rest

def verdictWord : Except SchemaFault Unit → String
  | .ok () => "ok"
  | .error fault => fault.message

def verdictLine (verdict : String × Except SchemaFault Unit) : String :=
  verdict.1 ++ ": " ++ verdictWord verdict.2 ++ "\n"

def runValidate (schemas : List String) (read : ReadFile) (input : FileContent) : Outcome :=
  let verdicts := verdicts read input schemas
  let status := if verdicts.all (·.2.isOk) then .success else .failure
  ⟨status, String.join (verdicts.map verdictLine), none, none⟩

def Command.run (command : Command) (read : ReadFile) (input : FileContent) : Outcome :=
  match command with
  | .compile job => job.run read input
  | .validate schemas => runValidate schemas read input
  | .help topic => ⟨.success, topic.page.text, none, none⟩

def Command.sources : Command → List SchemaSource
  | .compile job => [.ofArgument job.schema]
  | .validate schemas => schemas.map .ofArgument
  | .help _ => []

/-! ### Sessions -/

/-- Where a command line is carried out: the files, the working directory and the standard
input. -/
structure Session where
  files : FileTree
  place : FilePlace
  input : FileContent

/-- What is left of a session: the status, what was printed, and the files. -/
structure Result where
  status : ExitStatus
  output : String
  files : FileTree

/-- Puts the outcome of a command into effect. A file that cannot be written is a failure; what
the command prints is printed all the same. -/
def Session.settle (session : Session) (outcome : Outcome) : Result :=
  match outcome.saved with
  | none => ⟨outcome.status, outcome.output, session.files⟩
  | some (path, text) =>
    match session.files.trySave session.place path (.text text) with
    | ⟨files, some _⟩ => ⟨.failure, outcome.output, files⟩
    | ⟨files, none⟩ => ⟨outcome.status, outcome.output, files⟩

def Session.runCommand (session : Session) (command : Command) : Result :=
  session.settle (command.run (session.files.read session.place) session.input)

def Session.run (session : Session) (arguments : List String) : Result :=
  match Command.ofArguments arguments with
  | none => session.settle .misused
  | some command => session.runCommand command

end Setters

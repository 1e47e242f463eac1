import Setters.FilePath

/-!
# Command lines

The program has two commands (section 10.6 of the specification). `compile` takes one schema and
prints its expression tree; `validate` takes one or more schemas and tells of each whether it is
sound. Beside them there is help on either, on the program and on itself.

`Command.ofArguments` reads the arguments from left to right. An option may stand before or after
the schema, once at most. Its value is the next argument, or follows it behind an equals sign, or,
for a letter, without one. A value of its own starts with no hyphen, unless it is a lone one.
After a double hyphen every argument is a schema. Help wins over whatever comes behind it, and
whatever is wrong before it wins over help.
-/

namespace Setters

inductive Layout where
  | pretty
  | compact
deriving DecidableEq

structure CompileJob where
  schema : String
  name : Option String
  out : Option FilePath
  layout : Layout
deriving DecidableEq

/-- What help can be asked on. -/
inductive Topic where
  | program
  | compile
  | validate
  | help
deriving DecidableEq

inductive Command where
  | compile (job : CompileJob)
  | validate (schemas : List String)
  | help (topic : Topic)
deriving DecidableEq

/-- Why the arguments of a command are not read to their end. -/
inductive Stop where
  | misuse
  | help
deriving DecidableEq

/-! ### Arguments -/

inductive Argument where
  /-- A double hyphen. -/
  | separator
  /-- A word behind a double hyphen, and what follows an equals sign. -/
  | long (word : String) (value : Option String)
  /-- A letter behind a hyphen, and what follows it. -/
  | short (letter : Char) (rest : String)
  | plain (text : String)
deriving DecidableEq

/-- Cuts a long option at its first equals sign. -/
def Argument.ofLong (text : List Char) : Argument :=
  let word := String.ofList (text.takeWhile (· != '='))
  match text.dropWhile (· != '=') with
  | [] => .long word none
  | _ :: value => .long word (some (String.ofList value))

def Argument.ofText (text : String) : Argument :=
  match text.toList with
  | ['-', '-'] => .separator
  | '-' :: '-' :: rest => .ofLong rest
  | '-' :: letter :: rest => .short letter (String.ofList rest)
  | _ => .plain text

/-- Whether an argument can be the value of the option before it. -/
def Argument.isPlain : Argument → Bool
  | .plain _ => true
  | _ => false

/-- Whether an argument asks for help. What follows the letter is not looked at any more. -/
def Argument.isHelp : Argument → Bool
  | .long "help" none | .short 'h' _ => true
  | _ => false

/-! ### Reading `compile` -/

/-- The options of `compile` that take a value. -/
inductive ValueOption where
  | name
  | out
deriving DecidableEq

/-- What `compile` is told by an argument, or by an option and its value. -/
inductive CompileItem where
  | schema (text : String)
  | option (option : ValueOption) (value : String)
  | compact
deriving DecidableEq

inductive CompileKey where
  | schema
  | option (option : ValueOption)
  | compact
deriving DecidableEq

def CompileItem.key : CompileItem → CompileKey
  | .schema _ => .schema
  | .option which _ => .option which
  | .compact => .compact

/-- What an argument means to `compile`. -/
inductive CompileWord where
  | separator
  | item (item : CompileItem)
  /-- An option, the value of which is the next argument. -/
  | pending (option : ValueOption)
deriving DecidableEq

/-- The value that follows the letter of an option. -/
def letterValue (rest : String) : Option String :=
  match rest.toList with
  | [] => none
  | '=' :: value => some (String.ofList value)
  | _ => some rest

/-- An option with the value that its argument holds. -/
def ValueOption.word (option : ValueOption) : Option String → CompileWord
  | none => .pending option
  | some value => .item (.option option value)

def Argument.compileWord? : Argument → Option CompileWord
  | .separator => some .separator
  | .long "compact" none => some (.item .compact)
  | .long "name" value => some (ValueOption.name.word value)
  | .long "out" value => some (ValueOption.out.word value)
  | .short 'n' rest => some (ValueOption.name.word (letterValue rest))
  | .short 'o' rest => some (ValueOption.out.word (letterValue rest))
  | .plain text => some (.item (.schema text))
  | .long .. | .short .. => none

/-- What is known of a job before all arguments are read. -/
structure CompileDraft where
  schema : Option String := none
  name : Option String := none
  out : Option FilePath := none
  compact : Bool := false
deriving DecidableEq

namespace CompileDraft

def knows (draft : CompileDraft) : CompileKey → Bool
  | .schema => draft.schema.isSome
  | .option .name => draft.name.isSome
  | .option .out => draft.out.isSome
  | .compact => draft.compact

def put (draft : CompileDraft) : CompileItem → CompileDraft
  | .schema text => { draft with schema := some text }
  | .option .name value => { draft with name := some value }
  | .option .out value => { draft with out := some ⟨value⟩ }
  | .compact => { draft with compact := true }

/-- Takes an item into account. Nothing may be told twice, and a file to write has a name. -/
def add (draft : CompileDraft) (item : CompileItem) : Except Stop CompileDraft :=
  if draft.knows item.key || item = .option .out "" then .error .misuse
  else .ok (draft.put item)

def read (draft : CompileDraft) : List String → Except Stop CompileDraft
  | [] => .ok draft
  | text :: rest =>
    let argument := Argument.ofText text
    if argument.isHelp then .error .help
    else
      match argument.compileWord? with
      | none => .error .misuse
      | some .separator => (rest.map CompileItem.schema).foldlM add draft
      | some (.item item) => (draft.add item).bind (read · rest)
      | some (.pending option) =>
        -- what looks like an option is no value, even if it asks for help
        match rest with
        | [] => .error .misuse
        | value :: rest =>
          if (Argument.ofText value).isPlain then
            (draft.add (.option option value)).bind (read · rest)
          else .error .misuse

def finish (draft : CompileDraft) : Option CompileJob :=
  draft.schema.map fun schema =>
    ⟨schema, draft.name, draft.out, if draft.compact then .compact else .pretty⟩

end CompileDraft

/-! ### Reading commands -/

def readSchemaList : List String → Except Stop (List String)
  | [] => .ok []
  | text :: rest =>
    let argument := Argument.ofText text
    if argument.isHelp then .error .help
    else
      match argument with
      | .separator => .ok rest
      | .plain text => (readSchemaList rest).map (text :: ·)
      | .long .. | .short .. => .error .misuse

def Topic.ofWords : List String → Option Topic
  | [] => some .program
  | ["compile"] => some .compile
  | ["validate"] => some .validate
  | ["help"] => some .help
  | _ => none

def Stop.command? (topic : Topic) : Stop → Option Command
  | .misuse => none
  | .help => some (.help topic)

/-- The command that some arguments spell. -/
def Command.ofArguments : List String → Option Command
  | "compile" :: rest =>
    match CompileDraft.read {} rest with
    | .error stop => stop.command? .compile
    | .ok draft => draft.finish.map .compile
  | "validate" :: rest =>
    match readSchemaList rest with
    | .error stop => stop.command? .validate
    | .ok [] => none
    | .ok schemas => some (.validate schemas)
  | "help" :: rest => (Topic.ofWords rest).map .help
  | text :: _ => if (Argument.ofText text).isHelp then some (.help .program) else none
  | [] => none

end Setters

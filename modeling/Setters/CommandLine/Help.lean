import Setters.CommandLine

/-!
# Help

What the program prints when it is asked for help. A page says what its topic is about and how it
is used, and lists what may stand on the command line, each list in two columns.
-/

namespace Setters

/-- A list on a page of help: a title, and lines of what may be written and what that means. -/
structure HelpList where
  title : String
  lines : List (String × String)
deriving DecidableEq

structure HelpPage where
  about : String
  usage : String
  lists : List HelpList
deriving DecidableEq

/-- The lines of a list, with the second column behind the longest entry of the first one. -/
def HelpList.text (list : HelpList) : String :=
  let width := (list.lines.map (·.1.length)).foldl max 0
  let line : String × String → String := fun (written, meaning) =>
    "  " ++ (written.pushn ' ' (width - written.length)) ++ "  " ++ meaning ++ "\n"
  list.title ++ ":\n" ++ String.join (list.lines.map line)

def HelpPage.text (page : HelpPage) : String :=
  page.about ++ "\n\nUsage: " ++ page.usage ++ "\n" ++
    String.join (page.lists.map fun list => "\n" ++ list.text)

namespace Topic

def about : Topic → String
  | .program => "Compile settable-field schemas into setter/mixin expression trees"
  | .compile => "Compile a schema and print the expression tree as JSON"
  | .validate => "Check one or more schemas without compiling them"
  | .help => "Print this message or the help of the given subcommand(s)"

def usage : Topic → String
  | .program => "plait <COMMAND>"
  | .compile => "plait compile [OPTIONS] <SCHEMA>"
  | .validate => "plait validate <SCHEMAS>..."
  | .help => "plait help [COMMAND]..."

def helpLine : String × String :=
  ("-h, --help", "Print help")

def lists : Topic → List HelpList
  | .program =>
    [⟨"Commands",
      [("compile", about .compile), ("validate", about .validate), ("help", about .help)]⟩,
      ⟨"Options", [helpLine]⟩]
  | .compile =>
    [⟨"Arguments", [("<SCHEMA>", "Schema file (.json or .toml, or - for JSON on stdin)")]⟩,
      ⟨"Options",
        [("-n, --name <NAME>", "Name of the root declaration (defaults to the file stem)"),
          ("-o, --out <OUT>", "Output file (stdout if omitted)"),
          ("    --compact", "Emit compact JSON instead of pretty-printed"), helpLine]⟩]
  | .validate =>
    [⟨"Arguments", [("<SCHEMAS>...", "Schema files")]⟩, ⟨"Options", [helpLine]⟩]
  | .help => [⟨"Arguments", [("[COMMAND]...", "Print help for the subcommand(s)")]⟩]

def page (topic : Topic) : HelpPage :=
  ⟨topic.about, topic.usage, topic.lists⟩

end Topic

end Setters

import Setters.Text.Pieces

/-!
# File paths

A path names a file by the directories that lead to it, with a slash after each. Empty names and
single dots stay where they are, two dots go up. The last name that moves is the file's own; it
falls into a stem and an extension at its last dot, unless that dot comes first.
-/

namespace Setters

structure FilePath where
  text : String
deriving DecidableEq

namespace FilePath

def here : String :=
  "."

def up : String :=
  ".."

def pieces (path : FilePath) : List String :=
  (Text.pieces '/' path.text.toList).map String.ofList

def isAbsolute (path : FilePath) : Bool :=
  path.text.toList.head? == some '/'

/-- The names that move from one directory to another. -/
def names (path : FilePath) : List String :=
  path.pieces.filter fun name => name != "" && name != here

def fileName? (path : FilePath) : Option String :=
  match path.names.getLast? with
  | none => none
  | some name => if name = up then none else some name

def cutAtLastDot (name : List Char) : Option (List Char × List Char) :=
  match name.reverse.dropWhile (· != '.') with
  | [] => none
  | _ :: before => some (before.reverse, (name.reverse.takeWhile (· != '.')).reverse)

/-- The stem of a file name, and what stands behind its last dot if there is a stem before
it. -/
def splitName (name : String) : String × Option String :=
  match cutAtLastDot name.toList with
  | none => (name, none)
  | some ([], _) => (name, none)
  | some (before, after) => (String.ofList before, some (String.ofList after))

def stem? (path : FilePath) : Option String :=
  path.fileName?.map fun name => (splitName name).1

def extension? (path : FilePath) : Option String :=
  path.fileName?.bind fun name => (splitName name).2

def parentNames (path : FilePath) : List String :=
  path.names.dropLast

end FilePath

end Setters

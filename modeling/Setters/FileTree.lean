import Setters.FilePath

/-!
# Files and directories

A tree of directories and files below one root, and what a path leads to in it. A place is given
by the names from the root on. Reading gives the text of a file; saving makes the directories
that are missing and writes a file. Where saving fails, directories it made before stay behind.
-/

namespace Setters

/-- What a file holds: a text, or bytes that are none. -/
inductive FileContent where
  | text (t : String)
  | binary (bytes : List UInt8)
deriving DecidableEq

def FileContent.ofBytes (bytes : ByteArray) : FileContent :=
  match String.fromUTF8? bytes with
  | some t => .text t
  | none => .binary bytes.toList

inductive FileFault where
  | notFound
  | notDirectory
  | isDirectory
  | nameTooLong
  /-- The path holds a character that no path may hold. -/
  | nulInPath
  /-- The content is no text. -/
  | notText
  /-- Any other refusal of the system, with its number. -/
  | refused (reason : String) (code : Nat)
deriving DecidableEq

def FileFault.message : FileFault → String
  | .notFound => system "No such file or directory" 2
  | .notDirectory => system "Not a directory" 20
  | .isDirectory => system "Is a directory" 21
  | .nameTooLong => system "File name too long" 36
  | .nulInPath => "file name contained an unexpected NUL byte"
  | .notText => "stream did not contain valid UTF-8"
  | .refused reason code => system reason code
where
  system (reason : String) (code : Nat) : String :=
    reason ++ " (os error " ++ toString code ++ ")"

def FileContent.read : FileContent → Except FileFault String
  | .text t => .ok t
  | .binary _ => .error .notText

inductive FileEntry where
  | file (content : FileContent)
  | directory
deriving DecidableEq

/-- The names from the root on. -/
abbrev FilePlace : Type :=
  List String

/-- The entries below a root. -/
structure FileTree where
  entries : List (FilePlace × FileEntry)
deriving DecidableEq

namespace FileTree

def empty : FileTree :=
  ⟨[]⟩

/-- What stands at a place; the root is a directory. -/
def find? (tree : FileTree) : FilePlace → Option FileEntry
  | [] => some .directory
  | place => tree.entries.lookup place

def put (tree : FileTree) (place : FilePlace) (entry : FileEntry) : FileTree :=
  ⟨tree.entries.filter (·.1 != place) ++ [(place, entry)]⟩

/-! ### Following paths -/

def step (place : FilePlace) (name : String) : FilePlace :=
  if name = "" ∨ name = FilePath.here then place
  else if name = FilePath.up then place.dropLast
  else place ++ [name]

/-- The greatest size of a name, in bytes. -/
def maxNameSize : Nat :=
  255

/-- The greatest size of a path, in bytes. -/
def maxPathSize : Nat :=
  4095

/-- Follows names from a place. Every name needs a directory to start from; nothing need stand
where the last one leads. -/
def follow (tree : FileTree) (place : FilePlace) : List String → Except FileFault FilePlace
  | [] => .ok place
  | name :: names =>
    match tree.find? place with
    | none => .error .notFound
    | some (.file _) => .error .notDirectory
    | some .directory =>
      if maxNameSize < name.utf8ByteSize then .error .nameTooLong
      else follow tree (step place name) names

/-- The place at which a path starts, seen from a directory, if the path can name a file. -/
def start (place : FilePlace) (path : FilePath) : Except FileFault FilePlace :=
  if '\x00' ∈ path.text.toList then .error .nulInPath
  else if path.text.isEmpty then .error .notFound
  else if maxPathSize < path.text.utf8ByteSize then .error .nameTooLong
  else .ok (if path.isAbsolute then [] else place)

def locate (tree : FileTree) (place : FilePlace) (path : FilePath) :
    Except FileFault FilePlace :=
  match start place path with
  | .error fault => .error fault
  | .ok place => tree.follow place path.pieces

def read (tree : FileTree) (place : FilePlace) (path : FilePath) : Except FileFault String :=
  match tree.locate place path with
  | .error fault => .error fault
  | .ok target =>
    match tree.find? target with
    | none => .error .notFound
    | some .directory => .error .isDirectory
    | some (.file content) => content.read

/-! ### Changing the tree -/

/-- What an attempt to change a tree leaves: the tree as far as it was changed, and the fault that
stopped the attempt, if one did. -/
structure Attempt where
  tree : FileTree
  fault : Option FileFault

def Attempt.outcome (attempt : Attempt) : Except FileFault FileTree :=
  match attempt.fault with
  | none => .ok attempt.tree
  | some fault => .error fault

/-- Follows names from a directory and makes the directories that are missing, one by one. Those
made before a fault stay. -/
def tryDirectories (tree : FileTree) (place : FilePlace) : List String → Attempt
  | [] => ⟨tree, none⟩
  | name :: names =>
    if maxNameSize < name.utf8ByteSize then ⟨tree, some .nameTooLong⟩
    else
      let inner := step place name
      match tree.find? inner with
      | some .directory => tryDirectories tree inner names
      | some (.file _) => ⟨tree, some .notDirectory⟩
      | none => tryDirectories (tree.put inner .directory) inner names

def makeDirectories (tree : FileTree) (place : FilePlace) (names : List String) :
    Except FileFault FileTree :=
  (tree.tryDirectories place names).outcome

def write (tree : FileTree) (place : FilePlace) (path : FilePath) (content : FileContent) :
    Except FileFault FileTree :=
  match tree.locate place path with
  | .error fault => .error fault
  | .ok target =>
    match tree.find? target with
    | some .directory => .error .isDirectory
    | _ => .ok (tree.put target (.file content))

/-- Makes the directories around a file that are missing, then writes it. -/
def trySave (tree : FileTree) (place : FilePlace) (path : FilePath) (content : FileContent) :
    Attempt :=
  match start place path with
  | .error fault => ⟨tree, some fault⟩
  | .ok first =>
    match tree.tryDirectories first path.parentNames with
    | ⟨tree, some fault⟩ => ⟨tree, some fault⟩
    | ⟨tree, none⟩ =>
      match tree.write place path content with
      | .error fault => ⟨tree, some fault⟩
      | .ok tree => ⟨tree, none⟩

def save (tree : FileTree) (place : FilePlace) (path : FilePath) (content : FileContent) :
    Except FileFault FileTree :=
  (tree.trySave place path content).outcome

def saveDirectory (tree : FileTree) (place : FilePlace) (path : FilePath) :
    Except FileFault FileTree :=
  match start place path with
  | .error fault => .error fault
  | .ok first => tree.makeDirectories first path.names

/-- The files that are new in a later tree, or hold something else there. -/
def changes (before after : FileTree) : List (FilePlace × FileContent) :=
  after.entries.filterMap fun (place, entry) =>
    match entry with
    | .directory => none
    | .file content => if before.find? place = some entry then none else some (place, content)

end FileTree

end Setters

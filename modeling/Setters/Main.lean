import Setters.CommandLine.Session

/-!
# The program

Reads the files that a command needs and the standard input, lets the command decide, and puts
the outcome into effect.
-/

namespace Setters

/-- The fault that a refusal of the system stands for. Some refusals give their number with the
sign reversed. -/
def FileFault.ofSystem (reason : String) (code : UInt32) : FileFault :=
  match min code.toNat (Nat.pow 2 32 - code.toNat) with
  | 2 => .notFound
  | 20 => .notDirectory
  | 21 => .isDirectory
  | 36 => .nameTooLong
  | code => .refused reason code

def FileFault.ofError : IO.Error → FileFault
  | .noFileOrDirectory _ code reason | .interrupted _ code reason => ofSystem reason code
  | .alreadyExists _ code reason | .invalidArgument _ code reason
  | .permissionDenied _ code reason | .resourceExhausted _ code reason
  | .inappropriateType _ code reason | .noSuchThing _ code reason => ofSystem reason code
  | .otherError code reason | .resourceBusy code reason | .resourceVanished code reason
  | .unsupportedOperation code reason | .hardwareFault code reason
  | .unsatisfiedConstraints code reason | .illegalOperation code reason
  | .protocolError code reason | .timeExpired code reason => ofSystem reason code
  | .unexpectedEof => .refused "unexpected end of file" 0
  | .userError reason => .refused reason 0

def readSystemFile (path : FilePath) : IO (Except FileFault String) := do
  match ← (IO.FS.readBinFile path.text).toBaseIO with
  | .ok bytes => return (FileContent.ofBytes bytes).read
  | .error error => return .error (.ofError error)

partial def readStream (stream : IO.FS.Stream) (before : ByteArray) : IO ByteArray := do
  let bytes ← stream.read 65536
  if bytes.isEmpty then return before
  readStream stream (before ++ bytes)

def saveSystemFile (path : FilePath) (text : String) : IO Unit := do
  let parent := "/".intercalate path.parentNames
  let parent := if path.isAbsolute then "/" ++ parent else parent
  if !parent.isEmpty then IO.FS.createDirAll parent
  IO.FS.writeFile path.text text

def gather (sources : List SchemaSource) :
    IO (List (FilePath × Except FileFault String) × FileContent) := do
  let mut files := []
  let mut input := FileContent.text ""
  for source in sources do
    match source with
    | .file path =>
      if (SchemaFormat.ofPath? path).isSome then
        files := (path, ← readSystemFile path) :: files
    | .input => pure ()
  if sources.contains .input then
    input := .ofBytes (← readStream (← IO.getStdin) .empty)
  return (files, input)

def Outcome.perform (outcome : Outcome) : IO UInt32 := do
  if let some complaint := outcome.complaint then IO.eprintln complaint
  match outcome.saved with
  | none => IO.print outcome.output
  | some (path, text) =>
    try saveSystemFile path text
    catch error =>
      IO.eprintln (FileFault.ofError error).message
      return UInt32.ofNat ExitStatus.failure.code
  return UInt32.ofNat outcome.status.code

end Setters

def main (arguments : List String) : IO UInt32 := do
  match Setters.Command.ofArguments arguments with
  | none => Setters.Outcome.misused.perform
  | some command =>
    let (files, input) ← Setters.gather command.sources
    let read := fun path => (files.lookup path).getD (.error .notFound)
    (command.run read input).perform

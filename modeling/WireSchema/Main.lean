import WireSchema.CommandLine.Run

/-!
# The program on a real disk

Answers the requests of a command with the files of this computer, prints its lines and writes its
log. All decisions are made by the command itself.
-/

namespace WireSchema

open Disk CommandLine

/-- The failure that an error of the operating system stands for. -/
def osError : IO.Error → OsError
  | .noFileOrDirectory .. => .notFound
  | .alreadyExists .. => .alreadyExists
  | .resourceBusy .. => .busy
  | .inappropriateType _ 20 _ => .notDirectory
  | .inappropriateType _ 21 _ => .isDirectory
  | .invalidArgument _ 22 _ => .invalidArgument
  | .invalidArgument _ 36 _ => .nameTooLong
  | error => .other (toString error)

/-- The result of an action, failures included. -/
def attempt {α : Type} (action : IO α) : IO (Except OsError α) := do
  match ← action.toBaseIO with
  | .ok a => return .ok a
  | .error error => return .error (osError error)

/-- What lies at a path. -/
def kindOnDisk (path : Path) : IO Kind := do
  let data ← (System.mkFilePath [path.text]).metadata
  return if data.type == .dir then .directory else .file

def namesOnDisk (directory : Path) : IO (List String) := do
  let found ← (System.mkFilePath [directory.text]).readDir
  return found.toList.map (·.fileName)

def temporaryPath (temporary : Temporary) : String :=
  (temporary.directory.join ⟨temporary.name⟩).text

/-- Makes an empty file with a random name. -/
def makeTemporaryOnDisk (directory : Path) : IO Temporary := do
  let number ← IO.rand 0 (Nat.pow 2 60)
  let temporary : Temporary := ⟨directory, s!".tmp{number}"⟩
  let _ ← IO.FS.Handle.mk (temporaryPath temporary) .writeNew
  return temporary

def onDisk : (r : Request) → IO (Except OsError r.Answer)
  | .kind path => attempt (kindOnDisk path)
  | .read path => attempt do return (← IO.FS.readBinFile path.text).toList
  | .names directory => attempt (namesOnDisk directory)
  | .makeDirectory path => attempt (IO.FS.createDir path.text)
  | .makeTemporary directory => attempt (makeTemporaryOnDisk directory)
  | .fill temporary bytes =>
    attempt (IO.FS.writeBinFile (temporaryPath temporary) ⟨bytes.toArray⟩)
  | .sync _ => return .ok ()
  | .persist temporary target => attempt (IO.FS.rename (temporaryPath temporary) target.text)
  | .discard temporary => attempt (IO.FS.removeFile (temporaryPath temporary))
  | .removeFile path => attempt (IO.FS.removeFile path.text)
  | .removeDirectory path => attempt (IO.FS.removeDir path.text)
  | .resolve path => attempt do return ⟨(← IO.FS.realPath path.text).toString⟩
  | .workingDirectory => attempt do return ⟨(← IO.currentDir).toString⟩

/-- Runs a program. -/
def execute {ε α : Type} (verbose : Bool) : Program ε α → IO (Except ε α)
  | .done a => return .ok a
  | .fail error => return .error error
  | .report event rest => do
    if event.shown verbose then IO.eprintln (event.line verbose)
    execute verbose rest
  | .print line rest => do
    IO.println line
    execute verbose rest
  | .ask request next => do execute verbose (next (← onDisk request))

end WireSchema

open WireSchema.CommandLine in
/-- Runs the command that the words ask for. -/
def main (words : List String) : IO UInt32 := do
  let (verbose, program) := session words
  let outcome ← WireSchema.execute verbose program
  for line in errorLines outcome do
    IO.eprintln line
  return (exitCode outcome).toUInt32

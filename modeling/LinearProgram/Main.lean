import LinearProgram.CommandLine

/-!
# The program

Connects the command line with the machine. Events of the levels `INFO` and `WARN` go to standard error.

Files are read and written, `PATH` is searched and the clock is looked at here. How another program is
run to its end is left to whoever builds the machine (`machine`): `main` has no way to do it, and an
engine that it finds is reported as one that cannot be started.
-/

namespace LinearProgram.Program

/-- The reason that the operating system gives for not using a file. -/
def fileErrorOf : IO.Error → FileError
  | .noFileOrDirectory _ _ _ => .notFound
  | .permissionDenied _ _ _ => .denied
  | .inappropriateType _ code _ => if code = 21 then .isDirectory else .notDirectory
  | e => .other (toString e)

/-- What an action on files gives, or the reason why it fails. -/
def onFiles {α : Type} (action : IO α) : IO (Except FileError α) := do
  try
    return .ok (← action)
  catch e =>
    return .error (fileErrorOf e)

/-- The contents of a file. -/
def fileContents (path : String) : IO (Except FileError ByteArray) :=
  onFiles (IO.FS.readBinFile path)

/-- Whether a path is that of a file that can be read. -/
def isFile (path : String) : IO Bool :=
  return (← fileContents path) matches .ok _

/-- The first file of a name in the directories of `PATH`. -/
def findProgram (name : String) : IO (Option String) := do
  let some directories ← IO.getEnv "PATH" | return none
  let candidates := (directories.splitOn ":").map fun directory => directory ++ "/" ++ name
  candidates.findM? isFile

/-- The path of a new directory for files of passing use. -/
def makeScratch : IO (Except FileError String) :=
  onFiles (return toString (← IO.FS.createTempDir))

/-- Writes a text file. -/
def store (path text : String) : IO (Except FileError Unit) :=
  onFiles (IO.FS.writeFile path text)

/-- Writes an event to standard error if it is important enough. -/
def logEvent (e : Event Float) : IO Unit := do
  let line := e.line
  if line.level = .info ∨ line.level = .warn then
    let fields := line.fields.map fun f => " " ++ f.1 ++ "=" ++ f.2
    IO.eprintln (line.level.text ++ " " ++ line.message ++ String.join fields)

/-- The machine, where `start` runs a program with arguments to its end. -/
def machine (start : String → List String → IO (Except FileError Finished)) : Host IO where
  contents := fileContents
  isFile := isFile
  findProgram := findProgram
  makeScratch := makeScratch
  store := store
  start := start
  log := logEvent
  now := IO.monoNanosNow

/-- Runs the command line and leaves behind what it says. -/
def run (host : Host IO) (arguments : List String) : IO UInt32 := do
  let result ← CommandLine.run host arguments
  IO.print result.stdout
  IO.eprint result.stderr
  return UInt32.ofNat result.exitCode

end LinearProgram.Program

def main (arguments : List String) : IO UInt32 :=
  LinearProgram.Program.run (LinearProgram.Program.machine fun _ _ =>
    return .error (.other "programs are not started")) arguments

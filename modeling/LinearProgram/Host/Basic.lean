import LinearProgram.Event

/-!
# The machine the program runs on

Everything that the program asks of its surroundings is a field of `Host`. The program itself only
decides what to ask and what to make of the answers, so that any surroundings can stand in for the real
ones.
-/

namespace LinearProgram

/-- How a started program ended. -/
inductive ExitStatus where
  | code (n : Nat)
  | signal (n : Nat)
  deriving DecidableEq, Repr

/-- The names of the signals one to thirty-one. -/
def signalNames : List String :=
  ["SIGHUP", "SIGINT", "SIGQUIT", "SIGILL", "SIGTRAP", "SIGABRT", "SIGBUS", "SIGFPE", "SIGKILL",
    "SIGUSR1", "SIGSEGV", "SIGUSR2", "SIGPIPE", "SIGALRM", "SIGTERM", "SIGSTKFLT", "SIGCHLD",
    "SIGCONT", "SIGSTOP", "SIGTSTP", "SIGTTIN", "SIGTTOU", "SIGURG", "SIGXCPU", "SIGXFSZ",
    "SIGVTALRM", "SIGPROF", "SIGWINCH", "SIGIO", "SIGPWR", "SIGSYS"]

/-- The name of a signal in parentheses, if it has one. -/
def signalSuffix (n : Nat) : String :=
  match (if n = 0 then none else signalNames[n - 1]?) with
  | some name => " (" ++ name ++ ")"
  | none => ""

/-- The end of a program in words. -/
def ExitStatus.text : ExitStatus → String
  | .code n => "exit status: " ++ Decimal.natText n
  | .signal n => "signal: " ++ Decimal.natText n ++ signalSuffix n

/-- A program that has ended. -/
structure Finished where
  exit : ExitStatus
  stdout : ByteArray
  stderr : ByteArray

/-- What the program asks of the machine it runs on. -/
structure Host (m : Type → Type) [Monad m] where
  /-- The contents of a file. -/
  contents : String → m (Except FileError ByteArray)
  /-- Whether a path is that of a file. -/
  isFile : String → m Bool
  /-- The path of a program that is known by its name alone. -/
  findProgram : String → m (Option String)
  /-- The path of a new directory for files of passing use. -/
  makeScratch : m (Except FileError String)
  /-- Writes a text file. -/
  store : (path text : String) → m (Except FileError Unit)
  /-- Runs a program with arguments to its end. -/
  start : (program : String) → (arguments : List String) → m (Except FileError Finished)
  /-- Takes note of an event. -/
  log : Event Float → m Unit
  /-- The time in nanoseconds, on a clock that is not set back. A machine that does not say has a clock
  that stands still. -/
  now : m Nat := pure 0

end LinearProgram

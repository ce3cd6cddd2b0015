import LinearProgram.CommandLine.Manual
import LinearProgram.Job
import LinearProgram.Model.Production
import LinearProgram.Report.Document
import LinearProgram.Report.Text

/-!
# The command line

Three commands: `solve` solves the production plan and reports the result, `describe` shows the plan, and
`check-config` checks a file of limits. Each of them, and the program itself, shows its page of the manual
on request. Arguments are judged from left to right; those that make no command are a usage error.
-/

namespace LinearProgram.CommandLine

/-! ## Commands -/

/-- How a result is written. -/
inductive Format where
  | text
  | json
  deriving DecidableEq, Repr

/-- What the program is asked to do. -/
inductive Command where
  | solve (request : Request) (format : Format)
  | describe
  | checkConfig (path : String)
  | help (topic : Topic)

/-- The options of `solve`. -/
inductive Flag where
  | config
  | solver
  | format
  deriving DecidableEq, Repr

/-- The option of a letter. -/
def Flag.ofLetter? : Char → Option Flag
  | 'c' => some .config
  | 's' => some .solver
  | 'f' => some .format
  | _ => none

/-- The option of a word. -/
def Flag.ofWord? (word : List Char) : Option Flag :=
  if word = "config".toList then some .config
  else if word = "solver".toList then some .solver
  else if word = "format".toList then some .format
  else none

/-- The options given so far. -/
structure Given where
  config? : Option String
  solver? : Option Backend
  format? : Option String

namespace Given

/-- No options. -/
def nothing : Given :=
  ⟨none, none, none⟩

/-- Whether an option is given. -/
def has (g : Given) : Flag → Bool
  | .config => g.config?.isSome
  | .solver => g.solver?.isSome
  | .format => g.format?.isSome

/-- Takes the value of an option. An option is given once, a path is not empty, and a solver is one that
exists. -/
def take? (g : Given) (flag : Flag) (value : String) : Option Given :=
  if g.has flag then none
  else match flag with
    | .config => if value.isEmpty then none else some { g with config? := some value }
    | .solver => (Backend.ofName? value).map fun b => { g with solver? := some b }
    | .format => some { g with format? := some value }

/-- The command that the options make. Every format but `json` is text. -/
def command (g : Given) : Command :=
  .solve ⟨g.config?, g.solver?.getD .standard⟩
    (if g.format?.getD "text" = "json" then .json else .text)

end Given

/-- An argument of `solve` that is an option: the option, and its value if that is attached. A word has
it after an equals sign; after a letter it follows at once, and an equals sign in between is dropped. -/
def flag? (argument : String) : Option (Flag × Option String) :=
  match argument.toList with
  | '-' :: '-' :: cs =>
    let word := cs.takeWhile (· != '=')
    let value? := match cs.dropWhile (· != '=') with
      | '=' :: value => some (String.ofList value)
      | _ => none
    (Flag.ofWord? word).map (·, value?)
  | '-' :: letter :: cs =>
    let value? := match cs with
      | [] => none
      | '=' :: value => some (String.ofList value)
      | value => some (String.ofList value)
    (Flag.ofLetter? letter).map (·, value?)
  | _ => none

/-- Whether an argument cannot be a value that stands on its own: it begins with a minus sign and has
more than that. -/
def looksLikeFlag (argument : String) : Bool :=
  match argument.toList with
  | '-' :: _ :: _ => true
  | _ => false

/-- Whether an argument asks for help: the word, or a letter that others may follow. -/
def asksForHelp (argument : String) : Bool :=
  match argument.toList with
  | '-' :: 'h' :: _ => true
  | cs => cs = "--help".toList

/-- The command that `solve` and the arguments after it make, when `g` has been given before them. -/
def parseSolve? (g : Given) : List String → Option Command
  | [] => some g.command
  | ["--"] => some g.command
  | argument :: rest =>
    if asksForHelp argument then some (.help .solve)
    else match flag? argument with
      | none => none
      | some (flag, some value) => (g.take? flag value).bind fun g => parseSolve? g rest
      | some (flag, none) =>
        match rest with
        | [] => none
        | value :: rest =>
          if looksLikeFlag value then none
          else (g.take? flag value).bind fun g => parseSolve? g rest

/-- The command that `describe` and the arguments after it make. -/
def parseDescribe? : List String → Option Command
  | [] => some .describe
  | ["--"] => some .describe
  | argument :: _ => if asksForHelp argument then some (.help .describe) else none

/-- The path of `check-config`, which is not empty. -/
def checkConfig? (path : String) : Option Command :=
  if path.isEmpty then none else some (.checkConfig path)

/-- The command that `check-config` and the arguments after it make: one path, which may stand before or
after `--`. -/
def parseCheckConfig? : List String → Option Command
  | ["--", path] => checkConfig? path
  | [] => none
  | argument :: rest =>
    if asksForHelp argument then some (.help .checkConfig)
    else if looksLikeFlag argument then none
    else match rest with
      | [] => checkConfig? argument
      | ["--"] => checkConfig? argument
      | next :: _ =>
        if asksForHelp next && !argument.isEmpty then some (.help .checkConfig) else none

/-- The command that `help` and the words after it make. Only `help` alone or one topic has a page. -/
def parseHelp? : List String → Option Command
  | [] => some (.help .program)
  | [word] => (Topic.ofWord? word).map Command.help
  | _ => none

/-- The command that the arguments make, if they make one. -/
def parse? : List String → Option Command
  | "solve" :: rest => parseSolve? .nothing rest
  | "describe" :: rest => parseDescribe? rest
  | "check-config" :: rest => parseCheckConfig? rest
  | "help" :: rest => parseHelp? rest
  | argument :: _ => if asksForHelp argument then some (.help .program) else none
  | [] => none

/-! ## What the program does -/

/-- What the program leaves behind. -/
structure Result where
  exitCode : Nat
  stdout : String
  stderr : String
  deriving DecidableEq, Repr

/-- Success, with something printed. -/
def Result.success (stdout : String) : Result :=
  ⟨0, stdout, ""⟩

/-- Failure, with a complaint. -/
def Result.failure (stderr : String) : Result :=
  ⟨1, "", stderr⟩

/-- The answer to arguments that make no command. -/
def usage : String :=
  "Usage: lpkit solve [-c|--config FILE] [-s|--solver NAME] [-f|--format text|json]\n"
    ++ "       lpkit describe\n"
    ++ "       lpkit check-config FILE\n"

/-- The result written in a format. -/
def rendered (format : Format) (outcome : Outcome Float) : String :=
  match format with
  | .json => Report.documentText outcome.model outcome.solution
  | .text => Report.text outcome.model outcome.solution

/-- A model in words. -/
def description (m : Model Float) : String :=
  let lines := ["Objective: " ++ m.objective.text, "", "Variables:"]
    ++ m.vars.map (fun v => "  " ++ v.text)
    ++ ["", "Constraints:"]
    ++ m.constraints.map (fun c => "  " ++ c.text)
  String.join (lines.map (· ++ "\n"))

/-- The answer of `describe`. -/
def describe : Except ModelError (Model Float) → Result
  | .error e => .failure ("Model error: " ++ e.message ++ "\n")
  | .ok m => .success (description m)

/-- The answer of `check-config`. -/
def checked (path : String) : Except LimitsError (Limits Float) → Result
  | .error e => .failure ("✗ " ++ path ++ " has errors:\n  " ++ e.message ++ "\n")
  | .ok limits =>
    let head := "✓ " ++ path ++ " is valid\n"
    let note := if limits.isEmpty then "  no options set; backend defaults apply\n" else ""
    let values := limits.toList.map fun e => "  " ++ e.1.key ++ " = " ++ Decimal.plain e.2 ++ "\n"
    .success (head ++ note ++ String.join values)

/-- The answer of `solve`. -/
def solved (format : Format) : Except Failure (Outcome Float) → Result
  | .error e => .failure ("Error: " ++ e.message ++ "\n")
  | .ok outcome => .success (rendered format outcome)

variable {m : Type → Type} [Monad m]

/-- Does what a command says. -/
def execute (host : Host m) : Command → m Result
  | .solve request format => do
    return solved format (← Job.run host request (pure Production.model))
  | .describe => return describe Production.model
  | .checkConfig path => do
    return checked path (Limits.ofFile path (← host.contents path))
  | .help topic => return .success topic.page.text

/-- Does what the arguments say. -/
def run (host : Host m) (arguments : List String) : m Result :=
  match parse? arguments with
  | none => return ⟨2, "", usage⟩
  | some command => execute host command

end LinearProgram.CommandLine

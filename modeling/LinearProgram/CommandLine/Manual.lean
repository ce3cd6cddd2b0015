import LinearProgram.Text.Column

/-!
# The manual

What the program says about itself when it is asked for help: one page for the whole program and one for
each command. A page has a summary, a line of usage and tables of two columns, whose first column is as
wide as its longest item.
-/

namespace LinearProgram.CommandLine

/-- What a page of the manual is about. -/
inductive Topic where
  | program
  | solve
  | describe
  | checkConfig
  | help
  deriving DecidableEq, Repr

/-- A table of the manual: a title, and items with their explanations. -/
structure ManualTable where
  title : String
  items : List (String × String)

/-- The width of the first column. -/
def ManualTable.width (t : ManualTable) : Nat :=
  t.items.foldl (fun widest item => max widest item.1.length) 0

/-- The lines of a table, after an empty one. -/
def ManualTable.lines (t : ManualTable) : List String :=
  ["", t.title ++ ":"]
    ++ t.items.map fun item => "  " ++ Text.alignLeft t.width item.1 ++ "  " ++ item.2

/-- A page of the manual. -/
structure ManualPage where
  summary : String
  usage : String
  tables : List ManualTable

/-- The text of a page; every line ends with a line feed. -/
def ManualPage.text (p : ManualPage) : String :=
  let lines := [p.summary, "", "Usage: " ++ p.usage] ++ p.tables.flatMap ManualTable.lines
  String.join (lines.map (· ++ "\n"))

namespace Topic

/-- The option that every command has. -/
def helpItem : String × String :=
  ("-h, --help", "Print help")

/-- What a page is about, in a sentence. -/
def summary : Topic → String
  | .program => "Build linear programs and solve them with a pluggable backend"
  | .solve => "Solve the production model and report the result"
  | .describe => "List the variables and constraints of the production model"
  | .checkConfig => "Check a solver config file for errors"
  | .help => "Print this message or the help of the given subcommand(s)"

/-- The word that stands for a topic; the program itself has none. -/
def word? : Topic → Option String
  | .program => none
  | .solve => some "solve"
  | .describe => some "describe"
  | .checkConfig => some "check-config"
  | .help => some "help"

/-- The topics that have a word. -/
def commands : List Topic :=
  [.solve, .describe, .checkConfig, .help]

/-- The topic that a word stands for. -/
def ofWord? (word : String) : Option Topic :=
  commands.find? fun t => t.word? == some word

/-- The page about a topic. -/
def page (t : Topic) : ManualPage :=
  match t with
  | .program =>
    ⟨t.summary, "lpkit <COMMAND>",
      [⟨"Commands", commands.map fun c => (c.word?.getD "", c.summary)⟩, ⟨"Options", [helpItem]⟩]⟩
  | .solve =>
    ⟨t.summary, "lpkit solve [OPTIONS]",
      [⟨"Options",
        [("-c, --config <CONFIG>", "JSON solver config (gap-tolerance, time-limit-seconds)"),
          ("-s, --solver <SOLVER>", "Solver backend (simplex, scip) [default: simplex]"),
          ("-f, --format <FORMAT>", "Output format (text, json) [default: text]"), helpItem]⟩]⟩
  | .describe => ⟨t.summary, "lpkit describe", [⟨"Options", [helpItem]⟩]⟩
  | .checkConfig =>
    ⟨t.summary, "lpkit check-config <FILE>",
      [⟨"Arguments", [("<FILE>", "The file to check")]⟩, ⟨"Options", [helpItem]⟩]⟩
  | .help =>
    ⟨t.summary, "lpkit help [COMMAND]...",
      [⟨"Arguments", [("[COMMAND]...", "Print help for the subcommand(s)")]⟩]⟩

end Topic

end LinearProgram.CommandLine

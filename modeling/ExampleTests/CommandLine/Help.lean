import ExampleTests.CommandLine.Subcommand

/-! The pages of help, and the usage line of each subcommand. -/

namespace ExampleTests.CommandLine

def programName : String := "tester"

def versionPage : String := programName ++ " 0.1.0-alpha.1\n"

/-- Lines of a label and what it is about, with the second column aligned. -/
def aligned (rows : List (String × String)) : String :=
  let width := rows.foldl (fun w (label, _) => max w label.length) 0
  String.join (rows.map fun (label, about) =>
    "  " ++ label ++ "".pushn ' ' (width - label.length) ++ "  " ++ about ++ "\n")

/-- A part of a help page, left out if it has no rows. -/
def titled (title : String) (rows : List (String × String)) : List String :=
  if rows.isEmpty then [] else [title ++ ":\n" ++ aligned rows]

namespace Scope

/-- How a command of this scope begins. -/
def command : Scope → String
  | none => programName
  | some c => programName ++ " " ++ c.name

def required : Scope → List String
  | none => ["<COMMAND>"]
  | some .help => ["[COMMAND]..."]
  | some c => c.positionals.map (·.label)

def usage (s : Scope) : String :=
  let options := if s.flags.contains .output then ["[OPTIONS]"] else []
  String.intercalate " " (s.command :: options ++ s.required)

/-- The usage line that spells out the flags that were used. -/
def usageWith (s : Scope) (used : List Parameter) : String :=
  if used.isEmpty then s.usage
  else
    String.intercalate " " (s.command :: (used.filter (·.isFlag)).map (·.label) ++ s.required)

def about : Scope → String
  | none => "Generate test code from function examples"
  | some c => c.about

def argumentRows : Scope → List (String × String)
  | some .help => [("[COMMAND]...", "Print help for the subcommand(s)")]
  | s => s.positionals.map fun p => (p.label, p.about)

def commandRows : Scope → List (String × String)
  | none => Subcommand.all.map fun c => (c.name, c.about)
  | some _ => []

def optionRows (s : Scope) : List (String × String) :=
  s.flags.map fun f => ("-" ++ f.letter.toString ++ ", " ++ f.label, f.about)

def helpPage (s : Scope) : String :=
  String.intercalate "\n"
    ([s.about ++ "\n", "Usage: " ++ s.usage ++ "\n"] ++ titled "Commands" s.commandRows ++
      titled "Arguments" s.argumentRows ++ titled "Options" s.optionRows)

end Scope

end ExampleTests.CommandLine

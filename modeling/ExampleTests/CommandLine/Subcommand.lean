/-! What may stand on the command line: the subcommands, and the flags and
positional parameters of each. -/

namespace ExampleTests.CommandLine

inductive Subcommand where
  | generate
  | check
  | languages
  | help
deriving DecidableEq

inductive Flag where
  | output
  | help
  | version
deriving DecidableEq

inductive Parameter where
  | language
  | specFile
  | flag (f : Flag)
deriving DecidableEq

/-- What a command line is about so far: a subcommand, or the program as such. -/
abbrev Scope := Option Subcommand

namespace Subcommand

def all : List Subcommand := [generate, check, languages, help]

def name : Subcommand → String
  | generate => "generate"
  | check => "check"
  | languages => "languages"
  | help => "help"

def about : Subcommand → String
  | generate => "Generate a test document from a spec file"
  | check => "Check that a spec file is well-formed"
  | languages => "List supported languages"
  | help => "Print this message or the help of the given subcommand(s)"

def positionals : Subcommand → List Parameter
  | generate => [.language, .specFile]
  | check => [.specFile]
  | languages | help => []

def flags : Subcommand → List Flag
  | generate => [.output, .help]
  | check | languages => [.help]
  | help => []

end Subcommand

namespace Scope

def flags : Scope → List Flag
  | none => [.help, .version]
  | some c => c.flags

def positionals : Scope → List Parameter
  | none => []
  | some c => c.positionals

end Scope

namespace Flag

def name : Flag → String
  | output => "output"
  | help => "help"
  | version => "version"

def letter : Flag → Char
  | output => 'o'
  | help => 'h'
  | version => 'V'

def about : Flag → String
  | output => "Write output to a file instead of stdout"
  | help => "Print help"
  | version => "Print version"

/-- The long form, with what stands for its value. -/
def label : Flag → String
  | output => "--output <FILE>"
  | help => "--help"
  | version => "--version"

end Flag

namespace Parameter

def label : Parameter → String
  | language => "<LANGUAGE>"
  | specFile => "<SPEC_FILE>"
  | flag f => f.label

def about : Parameter → String
  | language => "Target language (haskell, javascript, gobstones)"
  | specFile => "Spec file (.json, .yaml or .yml)"
  | flag f => f.about

def isFlag : Parameter → Bool
  | flag _ => true
  | _ => false

end Parameter

end ExampleTests.CommandLine

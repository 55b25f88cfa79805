import ExampleTests.CommandLine.Help

/-! Why a command line does not lead to a command, and what is printed then: a
page that was asked for, or an error with a tip and a line on usage. -/

namespace ExampleTests.CommandLine

inductive Cause where
  | unknownSubcommand (name : String)
  | unexpected (argument : String)
  | excessValue (value : String) (flag : Flag)
  | missing (parameters : List Parameter)
  | noValue (parameter : Parameter)
  | repeated (parameter : Parameter)
  | notText
deriving DecidableEq

inductive Tip where
  | passAsValue (argument : String)
  | similarFlag (flag : Flag)
  | flagOf (subcommand : Subcommand) (flag : Flag)
  | similarSubcommands (names : List String)
  | withoutHyphens (subcommand : String)
deriving DecidableEq

structure Refusal where
  cause : Cause
  tip : Option Tip := none
  scope : Scope
  used : List Parameter := []
deriving DecidableEq

inductive Stop where
  | help (scope : Scope)
  | version
  | nothingGiven
  | refused (refusal : Refusal)
deriving DecidableEq

def inQuotes (s : String) : String := "'" ++ s ++ "'"

namespace Cause

def message : Cause → String
  | unknownSubcommand name => "unrecognized subcommand " ++ inQuotes name
  | unexpected argument => "unexpected argument " ++ inQuotes argument ++ " found"
  | excessValue value flag =>
    "unexpected value " ++ inQuotes value ++ " for " ++ inQuotes flag.label ++
      " found; no more were expected"
  | missing parameters =>
    "the following required arguments were not provided:" ++
      String.join (parameters.map fun p => "\n  " ++ p.label)
  | noValue parameter =>
    "a value is required for " ++ inQuotes parameter.label ++ " but none was supplied"
  | repeated parameter =>
    "the argument " ++ inQuotes parameter.label ++ " cannot be used multiple times"
  | notText => "invalid UTF-8 was detected in one or more arguments"

/-- A missing value is no matter of usage. -/
def concernsUsage : Cause → Bool
  | noValue _ => false
  | _ => true

end Cause

namespace Tip

def message : Tip → String
  | passAsValue argument =>
    "to pass " ++ inQuotes argument ++ " as a value, use " ++ inQuotes ("-- " ++ argument)
  | similarFlag flag => "a similar argument exists: " ++ inQuotes ("--" ++ flag.name)
  | flagOf subcommand flag => inQuotes (subcommand.name ++ " --" ++ flag.name) ++ " exists"
  | similarSubcommands names =>
    (if names.length = 1 then "a similar subcommand exists: "
      else "some similar subcommands exist: ") ++
      String.intercalate ", " (names.map inQuotes)
  | withoutHyphens subcommand =>
    "subcommand " ++ inQuotes subcommand ++ " exists; to use it, remove the '--' before it"

end Tip

namespace Refusal

/-- Help is pointed to wherever there is a flag for it. -/
def hint (r : Refusal) : List String :=
  if r.scope.flags.contains .help then ["For more information, try '--help'."] else []

def message (r : Refusal) : String :=
  let tip := r.tip.toList.map fun t => "  tip: " ++ t.message
  let usage := if r.cause.concernsUsage then ["Usage: " ++ r.scope.usageWith r.used] else []
  String.intercalate "\n\n" (("error: " ++ r.cause.message) :: tip ++ usage ++ r.hint) ++ "\n"

end Refusal

namespace Stop

def message : Stop → String
  | help scope => Scope.helpPage scope
  | version => versionPage
  | nothingGiven => Scope.helpPage none
  | refused r => r.message

/-- A page that was asked for is no failure. -/
def isFailure : Stop → Bool
  | help _ | version => false
  | nothingGiven | refused _ => true

end Stop

end ExampleTests.CommandLine

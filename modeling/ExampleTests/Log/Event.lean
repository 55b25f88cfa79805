import ExampleTests.Language
import ExampleTests.Validity
import ExampleTests.Text.Quoted

/-! What the program reports while it works: each event has a level, the part
of the program it comes from, and its own line of text. -/

namespace ExampleTests

inductive Level where
  | error
  | warn
  | info
  | debug
  | trace
deriving DecidableEq

/-- What was going on when an event happened. -/
inductive Activity where
  | generating (token subject : String) (examples : Nat)
  | loading (path : String)

inductive Event where
  | nothingToGenerate (during : Activity)
  | invalidSpec (during : Activity) (language : Language) (issue : Issue)
  | loaded (path subject : String) (examples : Nat)
  | written (path : String) (language : Language)

namespace Level

/-- More urgent levels have smaller ranks. -/
def rank : Level → Nat
  | error => 1
  | warn => 2
  | info => 3
  | debug => 4
  | trace => 5

/-- The name of a level, five columns wide. -/
def label : Level → String
  | error => "ERROR"
  | warn => " WARN"
  | info => " INFO"
  | debug => "DEBUG"
  | trace => "TRACE"

end Level

namespace Activity

def name : Activity → String
  | generating .. => "test_for"
  | loading .. => "load_spec"

/-- The part of the program that is busy. -/
def source : Activity → String
  | generating .. => "tester::dispatch"
  | loading .. => "tester::spec_file"

def fields : Activity → List String
  | generating .. => ["language", "subject", "examples"]
  | loading .. => ["path"]

/-- The name with what the activity is about, between braces. -/
def text (a : Activity) : String :=
  let about := match a with
    | generating token subject examples =>
      "language=" ++ Text.quote token ++ " subject=" ++ subject ++ " examples=" ++ examples.repr
    | loading path => "path=" ++ path
  a.name ++ "\x7b" ++ about ++ "\x7d"

end Activity

namespace Event

def level : Event → Level
  | nothingToGenerate .. | loaded .. => .debug
  | invalidSpec .. => .warn
  | written .. => .info

def activity? : Event → Option Activity
  | nothingToGenerate during | invalidSpec during .. => some during
  | loaded path .. => some (.loading path)
  | written .. => none

def source (e : Event) : String :=
  match e.activity? with
  | some a => a.source
  | none => "tester::cli::commands"

def fields : Event → List String
  | nothingToGenerate _ => ["message"]
  | invalidSpec .. => ["message", "language", "issue"]
  | loaded .. => ["message", "subject", "examples"]
  | written .. => ["message", "path", "language"]

def message : Event → String
  | nothingToGenerate .. => "no examples; nothing to generate"
  | invalidSpec _ language issue =>
    "generating from an invalid spec; output is unspecified language=" ++ language.token ++
      " issue=" ++ issue.message
  | loaded _ subject examples =>
    "loaded spec subject=" ++ subject ++ " examples=" ++ examples.repr
  | written path language =>
    "wrote generated tests path=" ++ path ++ " language=" ++ language.token

def line (e : Event) : String :=
  let activity := match e.activity? with
    | none => ""
    | some a => a.text ++ ": "
  e.level.label ++ " " ++ activity ++ e.source ++ ": " ++ e.message ++ "\n"

end Event

/-- A result together with the events on the way to it. -/
structure Logged (α : Type) where
  value : α
  events : List Event

namespace Logged

def log {α : Type} (r : Logged α) : String := String.join (r.events.map Event.line)

end Logged

end ExampleTests

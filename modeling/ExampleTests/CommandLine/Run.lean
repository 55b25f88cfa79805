import ExampleTests.CommandLine.Command
import ExampleTests.Generate
import ExampleTests.Loading
import ExampleTests.Log.Filter

/-! Commands at work. A command either prints, writes or fails, and no output
is there before everything that can fail has been done. -/

namespace ExampleTests.CommandLine

structure Outcome where
  exitCode : Nat
  printed : String := ""
  complaint : String := ""
  events : List Event := []

namespace Outcome

def success (printed : String) (events : List Event) : Outcome := ⟨0, printed, "", events⟩

/-- The files do not hold what the command needs. -/
def failure (complaint : String) (events : List Event) : Outcome :=
  ⟨1, "", complaint ++ "\n", events⟩

/-- The command line does not make sense. -/
def misuse (complaint : String) : Outcome := ⟨2, "", complaint ++ "\n", []⟩

def ofStop (stop : Stop) : Outcome :=
  if stop.isFailure then ⟨2, "", stop.message, []⟩ else ⟨0, stop.message, "", []⟩

/-- What goes to the error stream: the events that a filter shows, then the complaint. -/
def errorText (o : Outcome) (filter : Filter) : String := filter.log o.events ++ o.complaint

end Outcome

variable {m : Type → Type} [Monad m]

/-- Goes on with the spec of a file and the events of loading it. -/
def withSpec (files : FileAccess m) (path : PathName) (next : Spec → List Event → m Outcome) :
    m Outcome := do
  let loaded ← loadSpec files path
  match loaded.value with
  | .error e => return .failure ("Error loading " ++ path.text ++ ": " ++ e.message) loaded.events
  | .ok spec => next spec loaded.events

/-- Prints a document with a line break, or writes it to a file without one. -/
def deliver (files : FileAccess m) (language : Language) (output : Option PathName)
    (code : String) (events : List Event) : m Outcome := do
  match output with
  | none => return .success (code ++ "\n") events
  | some path =>
    match ← files.write path code with
    | .error e => return .failure ("Error writing " ++ path.text ++ ": " ++ e.message) events
    | .ok () => return .success "" (events ++ [.written path.text language])

def generateFile (files : FileAccess m) (token : String) (path : PathName)
    (output : Option PathName) : m Outcome :=
  match Language.ofToken token with
  | .error e => return .misuse ("Error: " ++ e.message)
  | .ok language =>
    withSpec files path fun spec events =>
      match spec.issue? with
      | some issue =>
        return .failure ("Invalid spec " ++ path.text ++ ": " ++ issue.message) events
      | none => deliver files language output (language.generate spec) events

def checkFile (files : FileAccess m) (path : PathName) : m Outcome :=
  withSpec files path fun spec events =>
    match spec.issue? with
    | some issue => return .failure (path.text ++ ": " ++ issue.message) events
    | none =>
      let count := spec.exampleList.length
      return .success (path.text ++ ": ok (" ++ count.repr ++ " examples)\n") events

def padded (s : String) : String := s.pushn ' ' (12 - s.length)

def languageLine (l : Language) : String :=
  padded l.token ++ " " ++ padded l.displayName ++ " " ++
    (if l.groupsExamples then "grouped examples" else "one example per document") ++ "\n"

def Command.run (files : FileAccess m) : Command → m Outcome
  | .generate token path output => generateFile files token path output
  | .check path => checkFile files path
  | .languages => return .success (String.join (Language.all.map languageLine)) []

/-- The whole program: what a command line leads to. -/
def runArguments (files : FileAccess m) (arguments : List Bytes) : m Outcome :=
  match Command.ofArguments arguments with
  | .error stop => return .ofStop stop
  | .ok command => command.run files

end ExampleTests.CommandLine

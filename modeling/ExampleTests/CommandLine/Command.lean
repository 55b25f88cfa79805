import ExampleTests.CommandLine.Form
import ExampleTests.CommandLine.Refusal
import ExampleTests.CommandLine.Similarity
import ExampleTests.PathName

/-! Commands from the arguments of a command line, read from left to right. A
value is held back until the argument after it is seen, and what is wrong with
it shows then. -/

namespace ExampleTests.CommandLine

inductive Command where
  | generate (language : String) (spec : PathName) (output : Option PathName)
  | check (spec : PathName)
  | languages
deriving DecidableEq

namespace Scope

/-- Only the program as such has subcommands. -/
def subcommands : Scope → List Subcommand
  | none => Subcommand.all
  | some _ => []

def subcommand? (s : Scope) (argument : Bytes) : Option Subcommand :=
  s.subcommands.find? (Text.encode ·.name == argument)

def longFlag? (s : Scope) (name : String) : Option Flag := s.flags.find? (·.name == name)

/-- A known letter and what follows it. -/
def shortFlag? (s : Scope) (letters : Bytes) : Option (Flag × Bytes) :=
  match letters with
  | [] => none
  | b :: rest => (s.flags.find? (·.letter.toNat == b.toNat)).map fun f => (f, rest)

def similarFlag? (s : Scope) (name : String) : Option Flag :=
  (similar Flag.name name s.flags).getLast?

/-- The first subcommand in the rest of the command line that has a flag like
an unknown name. -/
def similarFlagLater? (s : Scope) (name : String) (rest : List Bytes) : Option Tip :=
  rest.findSome? fun a => do
    let c ← s.subcommand? a
    let f ← similarFlag? (some c) name
    some (.flagOf c f)

/-- A hyphen in front may be meant, if there are values at all. -/
def passAsValue? (s : Scope) (argument : String) : Option Tip :=
  if s.positionals.isEmpty then none else some (.passAsValue argument)

/-- Names of subcommands, one below the other, lead to a page of help. -/
def pageOfHelp : Scope → List Bytes → Stop
  | s, [] => .help s
  | s, a :: rest =>
    match s.subcommand? a with
    | some c => pageOfHelp (some c) rest
    | none => .refused { cause := .unknownSubcommand (Text.decodeLossy a), scope := s }

end Scope

/-- What has been read of the arguments in a scope. The parameters that were
used are in the order of the command line. -/
structure Reading where
  scope : Scope
  awaited : List Parameter := scope.positionals
  language : Option String := none
  spec : Option PathName := none
  output : Option PathName := none
  used : List Parameter := []
  held : Option (Parameter × Option Bytes) := none

namespace Reading

def refuse {α : Type} (r : Reading) (cause : Cause) (tip : Option Tip := none)
    (used : List Parameter := []) : Except Stop α :=
  .error (.refused ⟨cause, tip, r.scope, used⟩)

/-- Gives a parameter its value. It counts as used even if the value is refused. -/
def assign (r : Reading) (p : Parameter) (value : Bytes) : Reading × Option Cause :=
  if r.used.contains p then ({ r with used := r.used.erase p }, some (.repeated p))
  else
    let r := { r with used := r.used ++ [p] }
    match p with
    | .language =>
      match Text.decode? value with
      | some s => ({ r with language := some s }, none)
      | none => (r, some .notText)
    | .specFile =>
      if value.isEmpty then (r, some (.noValue p)) else ({ r with spec := some ⟨value⟩ }, none)
    | .flag _ =>
      if value.isEmpty then (r, some (.noValue p)) else ({ r with output := some ⟨value⟩ }, none)

/-- Assigns what is held back, with what is wrong with it. -/
def settled (r : Reading) : Reading × Option Cause :=
  match r.held with
  | none => (r, none)
  | some (p, none) => ({ r with held := none }, some (.noValue p))
  | some (p, some value) => { r with held := none }.assign p value

def orRefuse : Reading × Option Cause → Except Stop Reading
  | (r, none) => .ok r
  | (r, some cause) => r.refuse cause

def settle (r : Reading) : Except Stop Reading := orRefuse r.settled

/-- Help and version end the reading; an output takes a value, the attached
one or else the next argument. -/
def readFlag (r : Reading) (f : Flag) (attached : Option Bytes) : Except Stop Reading := do
  let r ← r.settle
  match f, attached with
  | .help, _ => .error (.help r.scope)
  | .version, _ => .error .version
  | .output, some value => orRefuse (r.assign (.flag .output) value)
  | .output, none => .ok { r with held := some (.flag .output, none) }

/-- A long form that is unknown; a tip names what may have been meant. -/
def refuseLong (r : Reading) (name : String) (rest : List Bytes) : Except Stop Reading :=
  let (r, _) := r.settled
  let cause := Cause.unexpected ("--" ++ name)
  match r.scope.similarFlag? name with
  | some f =>
    let used := if r.used.contains (.flag f) then r.used else r.used ++ [.flag f]
    r.refuse cause (some (.similarFlag f)) used
  | none =>
    let tip := r.scope.similarFlagLater? name rest <|> r.scope.passAsValue? ("--" ++ name)
    r.refuse cause tip r.used

def readLong (r : Reading) (name : String) (value : Option Bytes) (rest : List Bytes) :
    Except Stop Reading :=
  match r.scope.longFlag? name, value with
  | none, _ => r.refuseLong name rest
  | some .output, _ => r.readFlag .output value
  | some f, none => r.readFlag f none
  | some f, some value =>
    r.refuse (.excessValue (Text.decodeLossy value) f) none (r.used.filter (·.isFlag) ++ [.flag f])

/-- A value follows the letter at once, after an equals sign if there is one. -/
def readShort (r : Reading) (letters : Bytes) : Except Stop Reading :=
  match r.scope.shortFlag? letters with
  | some (f, []) => r.readFlag f none
  | some (f, b :: rest) => r.readFlag f (some (if b = equals then rest else b :: rest))
  | none =>
    let (r, _) := r.settled
    let shown := "-" ++ firstLetter letters
    r.refuse (.unexpected shown) (r.scope.passAsValue? shown)

/-- An argument where none is awaited, or a subcommand. -/
def refuseArgument (r : Reading) (afterHyphens : Bool) (argument : Bytes) : Except Stop Reading :=
  let (r, _) := r.settled
  let name := Text.decodeLossy argument
  if r.scope.subcommands.isEmpty then r.refuse (.unexpected name)
  else if afterHyphens && (r.scope.subcommand? argument).isSome then
    r.refuse (.unexpected name) (some (.withoutHyphens name))
  else
    match similar id name (r.scope.subcommands.map (·.name)) with
    | [] => r.refuse (.unknownSubcommand name)
    | names => r.refuse (.unknownSubcommand name) (some (.similarSubcommands names))

def readPositional (r : Reading) (afterHyphens : Bool) (argument : Bytes) : Except Stop Reading :=
  match r.awaited with
  | [] => r.refuseArgument afterHyphens argument
  | p :: rest => do
    let r ← r.settle
    .ok { r with awaited := rest, held := some (p, some argument) }

/-- A flag that lacks its value takes the argument. -/
def readValue (r : Reading) (argument : Bytes) : Except Stop Reading :=
  match r.held with
  | some (p, none) => .ok { r with held := some (p, some argument) }
  | _ => r.readPositional false argument

/-- Reads all arguments. A subcommand starts anew with the rest of them; after
a double hyphen all are positional. -/
def readAll : Bool → Reading → List Bytes → Except Stop Reading
  | _, r, [] => r.settle
  | true, r, a :: rest => do readAll true (← r.readPositional true a) rest
  | false, r, a :: rest =>
    match r.scope.subcommand? a with
    | some .help => .error (r.scope.pageOfHelp rest)
    | some c => readAll false { scope := some c } rest
    | none =>
      match Form.of a with
      | .doubleHyphen => readAll true r rest
      | .long name value => do readAll false (← r.readLong name value rest) rest
      | .short letters => do readAll false (← r.readShort letters) rest
      | .value => do readAll false (← r.readValue a) rest

/-- The parameters that a command cannot do without and that were not given. -/
def missing (r : Reading) : List Parameter := r.scope.positionals.filter (!r.used.contains ·)

def command (r : Reading) : Except Stop Command :=
  match r.scope, r.language, r.spec with
  | none, _, _ => .error .nothingGiven
  | some .generate, some language, some spec => .ok (.generate language spec r.output)
  | some .check, _, some spec => .ok (.check spec)
  | some .languages, _, _ => .ok .languages
  | _, _, _ => r.refuse (.missing r.missing) none (r.used ++ r.missing)

end Reading

def Command.ofArguments (arguments : List Bytes) : Except Stop Command := do
  (← Reading.readAll false { scope := none } arguments).command

end ExampleTests.CommandLine

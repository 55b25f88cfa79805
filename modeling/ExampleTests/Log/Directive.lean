import ExampleTests.Log.Event
import ExampleTests.Text.Alphanumeric

/-! Directives such as `info` or `tester::cli=debug`, and how they are read. A
directive says what it is about, and down to which level that is shown. -/

namespace ExampleTests

/-- The least urgent level that is let through; `none` lets nothing through. -/
abbrev Threshold := Option Level

namespace Threshold

def all : List Threshold :=
  [none, some .error, some .warn, some .info, some .debug, some .trace]

def name : Threshold → String
  | none => "off"
  | some .error => "error"
  | some .warn => "warn"
  | some .info => "info"
  | some .debug => "debug"
  | some .trace => "trace"

def digitsValue (digits : List Char) : Nat :=
  digits.foldl (fun n c => 10 * n + (c.toNat - '0'.toNat)) 0

/-- A threshold is written by name in any case, or by its number. -/
def ofText? (text : List Char) : Option Threshold :=
  let digits := if text.head? = some '+' then text.tail else text
  if !digits.isEmpty && digits.all Char.isDigit then all[digitsValue digits]?
  else all.find? fun t => t.name.toList == text.map Char.toLower

def allows (t : Threshold) (level : Level) : Bool := t.any (level.rank ≤ ·.rank)

end Threshold

/-- A field that is asked for by name. One that is asked for a value as well
fits no activity. -/
structure FieldPattern where
  name : String
  hasValue : Bool
deriving DecidableEq

/-- What a directive is about. An empty source fits every source. -/
structure Subject where
  source : List Char := []
  activity : Option String := none
  field : Option FieldPattern := none
deriving DecidableEq

structure Directive where
  subject : Subject := {}
  threshold : Threshold := some .trace

namespace Subject

def ofField (text : List Char) : FieldPattern :=
  ⟨String.ofList (text.takeWhile (· != '=')), text.contains '='⟩

/-- Whether events are let through because of what was going on. -/
def isAboutActivities (s : Subject) : Bool := s.activity.isSome || s.field.isSome

/-- Whether events are let through because of what they are. -/
def isAboutEvents (s : Subject) : Bool := s.activity.isNone && !s.field.any (·.hasValue)

def fitsActivity (s : Subject) (a : Activity) : Bool :=
  s.source.isPrefixOf a.source.toList && s.activity.all (· == a.name) &&
    s.field.all fun f => !f.hasValue && a.fields.contains f.name

def fitsEvent (s : Subject) (e : Event) : Bool :=
  s.source.isPrefixOf e.source.toList && s.field.all fun f => e.fields.contains f.name

/-- A longer source is more specific, then a field; the name of a field breaks ties. -/
def isBelow (s t : Subject) : Bool :=
  if s.source.length = t.source.length then
    match s.field, t.field with
    | none, f => f.isSome
    | some _, none => false
    | some f, some g => f.name < g.name
  else s.source.length < t.source.length

end Subject

namespace Directive

/-- A directive as it is read: its text, of which `seen` is without the blanks
around it. Positions are counted in `seen` but cut from `text`. -/
structure Source where
  text : List Char
  seen : List Char

namespace Source

def ofText (text : List Char) : Source :=
  ⟨text, ((text.dropWhile Text.isBlank).reverse.dropWhile Text.isBlank).reverse⟩

def cut (s : Source) (first last : Nat) : List Char := (s.text.drop first).take (last - first)

/-- The first position from `start` on of a character that ends a part. -/
def find? (s : Source) (start : Nat) (isEnd : Char → Bool) : Option (Nat × Char) :=
  (((s.seen.zipIdx).drop start).find? (isEnd ·.1)).map fun (c, i) => (i, c)

end Source

/-- The level after an equals sign; nothing there stands for every level. -/
def readThreshold (s : Source) (start : Nat) (subject : Subject) : Option Directive :=
  match s.text.drop start with
  | [] => some { subject }
  | level => (Threshold.ofText? level).map fun threshold => { subject, threshold }

def readAfterBracket (s : Source) (start : Nat) (subject : Subject) : Option Directive :=
  match s.seen[start]? with
  | none => some { subject }
  | some '=' => readThreshold s (start + 1) subject
  | some _ => none

/-- The name of a field between braces, and the bracket after it. -/
def readField (s : Source) (start : Nat) (subject : Subject) : Option Directive := do
  let (i, _) ← s.find? start (· == '\x7d')
  let text := s.cut start i
  if text.isEmpty then none
  else if s.seen[i + 1]? = some ']' then
    readAfterBracket s (i + 2) { subject with field := some (Subject.ofField text) }
  else none

def readActivity (s : Source) (start : Nat) (subject : Subject) : Option Directive := do
  let (i, c) ← s.find? start fun c => c == ']' || c == '\x7b'
  let name := s.cut start i
  let named := { subject with activity := some (String.ofList name) }
  if c = ']' then readAfterBracket s (i + 1) named
  else readField s (i + 1) (if name.isEmpty then subject else named)

def mayStart (c : Char) : Bool := c == '-' || c == ':' || c == '_' || Text.isAlphanumeric c

/-- A directive alone is a level if it reads as one and otherwise a source. -/
def ofText? (text : List Char) : Option Directive :=
  let s := Source.ofText text
  match s.seen with
  | [] => none
  | '[' :: _ => readActivity s 1 {}
  | c :: _ =>
    if mayStart c then
      match s.find? 1 fun c => c == '=' || c == '[' with
      | none =>
        match Threshold.ofText? text with
        | some threshold => some { threshold }
        | none => some { subject := { source := text } }
      | some (i, c) =>
        let subject : Subject := { source := s.cut 0 i }
        if c = '=' then readThreshold s (i + 1) subject else readActivity s (i + 1) subject
    else none

end Directive

end ExampleTests

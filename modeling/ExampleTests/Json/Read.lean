import ExampleTests.Json.Skip

/-! Specs and literals from JSON. A spec is an object, or an array of its parts
in their order, and so is an example; keys that mean nothing are skipped. The
first fault in the order of the source is the one that is reported. -/

namespace ExampleTests.Json

/-- Reads a scalar, or sees an array or object without consuming it. -/
def readFound : Reader Found
  | [] => .error (.before .endInValue [])
  | '[' :: rest => .ok (.sequence, '[' :: rest)
  | '{' :: rest => .ok (.mapping, '{' :: rest)
  | '"' :: rest => do
    let (s, rest) ← readText rest
    .ok (.text s, rest)
  | 'n' :: rest => do .ok (.unit, ← expectWord ['u', 'l', 'l'] rest)
  | 't' :: rest => do .ok (.boolean true, ← expectWord ['r', 'u', 'e'] rest)
  | 'f' :: rest => do .ok (.boolean false, ← expectWord ['a', 'l', 's', 'e'] rest)
  | '-' :: rest => readNumber true rest
  | c :: rest =>
    if c.isDigit then readNumber false (c :: rest)
    else .error (.atNext .expectedValue (c :: rest))

def readMismatch {α : Type} (wanted : Wanted) : Reader α := fun rest => do
  let (found, rest) ← readFound rest
  .error (.before (.mismatch ⟨found, wanted⟩) rest)

/-- Where a fault in an array counts: after its bracket or comma if one is
next. -/
def afterClosingArray (rest : List Char) : List Char :=
  match skipBlanks rest with
  | ']' :: rest => rest
  | ',' :: rest => skipBlanks rest
  | rest => rest

/-- Where a fault in an object counts: after its brace if that is next. -/
def afterClosingObject (rest : List Char) : List Char :=
  match skipBlanks rest with
  | '}' :: rest => rest
  | rest => rest

def readValue : Reader Value := fun rest =>
  match skipBlanks rest with
  | '[' :: rest => .error (.before (.mismatch ⟨.sequence, .value⟩) (afterClosingArray rest))
  | '{' :: rest => .error (.before (.mismatch ⟨.mapping, .value⟩) (afterClosingObject rest))
  | rest => do
    let (found, rest) ← readFound rest
    match Value.ofFound found with
    | .ok v => .ok (v, rest)
    | .error m => .error (.before (.mismatch m) rest)

def readString : Reader String := fun rest =>
  match skipBlanks rest with
  | '"' :: rest => readText rest
  | rest => readMismatch .text rest

/-- Reads `null` as nothing. -/
def readOptional {α : Type} (read : Reader α) : Reader (Option α) := fun rest =>
  match skipBlanks rest with
  | 'n' :: rest => do .ok (none, ← expectWord ['u', 'l', 'l'] rest)
  | rest => do
    let (a, rest) ← read rest
    .ok (some a, rest)

def nextElement (first : Bool) (rest : List Char) : Except Fault (Option (List Char)) :=
  match skipBlanks rest with
  | [] => .error (.before .endInList [])
  | ']' :: _ => .ok none
  | c :: rest =>
    if first then .ok (some (c :: rest))
    else if c = ',' then
      match skipBlanks rest with
      | [] => .error (.before .endInValue [])
      | ']' :: rest => .error (.atNext .trailingComma (']' :: rest))
      | rest => .ok (some rest)
    else .error (.atNext .expectedCommaOrBracket (c :: rest))

def endArray (rest : List Char) : Except Fault (List Char) :=
  match skipBlanks rest with
  | [] => .error (.before .endInList [])
  | ']' :: rest => .ok rest
  | ',' :: rest =>
    match skipBlanks rest with
    | ']' :: rest => .error (.atNext .trailingComma (']' :: rest))
    | rest => .error (.atNext .trailingCharacters rest)
  | rest => .error (.atNext .trailingCharacters rest)

def readElements {α : Type} (read : Reader α) : Nat → Bool → Reader (List α)
  | 0, _, rest => .error (.before .endInList rest)
  | fuel + 1, first, rest => do
    match ← nextElement first rest with
    | none => .ok ([], ← endArray rest)
    | some rest =>
      let (a, rest) ← read rest
      let (as, rest) ← readElements read fuel false rest
      .ok (a :: as, rest)

def readList {α : Type} (read : Reader α) : Reader (List α) := fun rest =>
  match skipBlanks rest with
  | '[' :: rest => readElements read (rest.length + 1) true rest
  | rest => readMismatch .sequence rest

/-- Reads an element of an array of parts, which may end before it. -/
def readPart {α : Type} (first : Bool) (missing : α) (read : Reader α) : Reader α := fun rest => do
  match ← nextElement first rest with
  | none => .ok (missing, rest)
  | some rest => read rest

/-- Goes to the next key of an object, if there is one, past its quote. -/
def nextKey (first : Bool) (rest : List Char) : Except Fault (Option (List Char)) :=
  match skipBlanks rest with
  | [] => .error (.before .endInObject [])
  | '}' :: _ => .ok none
  | c :: rest =>
    if first then
      if c = '"' then .ok (some rest) else .error (.atNext .keyNotText (c :: rest))
    else if c = ',' then
      match skipBlanks rest with
      | [] => .error (.before .endInValue [])
      | '"' :: rest => .ok (some rest)
      | '}' :: rest => .error (.atNext .trailingComma ('}' :: rest))
      | rest => .error (.atNext .keyNotText rest)
    else .error (.atNext .expectedCommaOrBrace (c :: rest))

def endObject (rest : List Char) : Except Fault (List Char) :=
  match skipBlanks rest with
  | '}' :: rest => .ok rest
  | [] => .error (.before .endInObject [])
  | ',' :: rest => .error (.atNext .trailingComma (',' :: rest))
  | rest => .error (.atNext .trailingCharacters rest)

/-- What a key means for the fields read so far. -/
inductive Field (σ : Type) where
  | unknown
  | repeated
  | value (read : Reader σ)

def readMembers {σ : Type} (field : σ → String → Field σ) : Nat → Bool → σ → Reader σ
  | 0, _, _, rest => .error (.before .endInObject rest)
  | fuel + 1, first, fields, rest => do
    match ← nextKey first rest with
    | none => .ok (fields, ← endObject rest)
    | some rest =>
      let (key, rest) ← readText rest
      match field fields key with
      | .repeated => .error (.before (.duplicateField key) (afterClosingObject rest))
      | .value read =>
        let (fields, rest) ← read (← expectColon rest)
        readMembers field fuel false fields rest
      | .unknown =>
        let rest ← skipValue (← expectColon rest)
        readMembers field fuel false fields rest

def readObject {σ : Type} (field : σ → String → Field σ) (fields : σ) : Reader σ := fun rest =>
  readMembers field (rest.length + 1) true fields rest

/-- A field that is read into its place, once. -/
def Field.once {α σ : Type} (present : Option α) (read : Reader α) (set : α → σ) : Field σ :=
  if present.isSome then .repeated
  else .value fun rest => do
    let (a, rest) ← read rest
    .ok (set a, rest)

/-- The fields of an example that have been read; each may be null. -/
structure ExampleFields where
  arguments : Option (Option (List Value)) := none
  returns : Option (Option Value) := none

namespace ExampleFields

def toExample (f : ExampleFields) : Example :=
  { arguments := f.arguments.join, returns := f.returns.join }

def readArguments : Reader (Option (List Value)) := readOptional (readList readValue)

def readReturns : Reader (Option Value) := readOptional readValue

def field (f : ExampleFields) (key : String) : Field ExampleFields :=
  if key = "arguments" then
    .once f.arguments readArguments fun a => { f with arguments := some a }
  else if key = "return" then
    .once f.returns readReturns fun r => { f with returns := some r }
  else .unknown

end ExampleFields

def readExample : Reader Example := fun rest =>
  match skipBlanks rest with
  | '{' :: rest => do
    let (fields, rest) ← readObject ExampleFields.field {} rest
    .ok (fields.toExample, rest)
  | '[' :: rest => do
    let (arguments, rest) ← readPart true none ExampleFields.readArguments rest
    let (returns, rest) ← readPart false none ExampleFields.readReturns rest
    .ok ({ arguments, returns }, ← endArray rest)
  | rest => readMismatch .exampleOfSpec rest

/-- The fields of a spec that have been read; the examples may be null. -/
structure SpecFields where
  subject : Option String := none
  examples : Option (Option (List Example)) := none

namespace SpecFields

def toSpec (f : SpecFields) : Spec :=
  { subject := f.subject.getD "", examples := f.examples.join }

def readExamples : Reader (Option (List Example)) := readOptional (readList readExample)

def field (f : SpecFields) (key : String) : Field SpecFields :=
  if key = "subject" then
    .once f.subject readString fun s => { f with subject := some s }
  else if key = "examples" then
    .once f.examples readExamples fun es => { f with examples := some es }
  else .unknown

end SpecFields

def readSpec : Reader Spec := fun rest =>
  match skipBlanks rest with
  | '{' :: rest => do
    let (fields, rest) ← readObject SpecFields.field {} rest
    .ok (fields.toSpec, rest)
  | '[' :: rest => do
    let (subject, rest) ← readPart true "" readString rest
    let (examples, rest) ← readPart false none SpecFields.readExamples rest
    .ok ({ subject, examples }, ← endArray rest)
  | rest => readMismatch .spec rest

/-- Reads a whole source: only blanks may follow. -/
def readAll {α : Type} (read : Reader α) (source : String) : Except Error α :=
  let cs := source.toList
  let result := do
    let (a, rest) ← read cs
    match skipBlanks rest with
    | [] => .ok a
    | rest => .error (.atNext .trailingCharacters rest)
  result.mapError (Error.ofFault cs)

def parseSpec : String → Except Error Spec := readAll readSpec

def parseValue : String → Except Error Value := readAll readValue

end ExampleTests.Json

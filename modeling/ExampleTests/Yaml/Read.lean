import ExampleTests.Spec
import ExampleTests.Yaml.Error
import ExampleTests.Yaml.Plain

/-! Specs and literals from YAML. Specs and examples are mappings, and so is
what is left out; keys that mean nothing are skipped. An alias is read at the
node of its anchor. -/

namespace ExampleTests.Yaml

/-- What has not been read yet, and how many aliases have been followed. -/
structure Position where
  rest : List (Marked Item)
  followed : Nat := 0

abbrev Reader (α : Type) := Position → Except Error (α × Position)

namespace Scalar

def coreTag (name : String) : Bytes := secondaryPrefix ++ Text.encode name

def isLocalTag (tag : Bytes) : Bool := tag.head? = some 33

/-- What a scalar stands for. A tag of the core kinds forces one of them, other
tags make text; a scalar that is not plain is text. -/
def resolve (s : Scalar) : Except Error Found :=
  let text := s.text.toList
  let invalid (wanted : Wanted) : Except Error Found := .error ⟨.invalidValue s.text wanted, none⟩
  let plain : Found := if s.style = .plain then Plain.resolve text else .text s.text
  match s.tag with
  | none => .ok plain
  | some tag =>
    if tag = coreTag "bool" then (Plain.boolean? text).elim (invalid .boolean) (.ok <| .boolean ·)
    else if tag = coreTag "int" then (Plain.word? text).elim (invalid .integer) (.ok <| .integer ·)
    else if tag = coreTag "float" then (Plain.float? text).elim (invalid .float) (.ok <| .float ·)
    else if tag = coreTag "null" then (if Plain.isNull text then .ok .unit else invalid .null)
    else if isLocalTag tag then .ok plain
    else .ok (.text s.text)

/-- Whether nothing is written where the scalar stands. -/
def isLeftOut (s : Scalar) : Bool := s.style = .plain && s.text.isEmpty

def isAbsent (s : Scalar) : Except Error Bool :=
  if s.style ≠ .plain then .ok false
  else
    match s.tag with
    | none => .ok (s.text.isEmpty || Plain.isNull s.text.toList)
    | some tag =>
      if tag ≠ coreTag "null" then .ok false
      else if Plain.isNull s.text.toList then .ok true
      else .error ⟨.invalidValue s.text .null, none⟩

end Scalar

namespace Document

/-- Whether a tag is a name of its own, and not one of the known kinds. -/
def isOwnTag (tag : Option Bytes) : Bool :=
  match tag with
  | some (33 :: rest) => (Text.decode? rest).isSome
  | _ => false

/-- The error of a document that ends where more is wanted. -/
def endError (d : Document) : Error := ⟨d.broken.elim .endOfDocument .broken, none⟩

/-- Aliases may be followed a hundred times for each item. -/
def followLimit (d : Document) : Nat := 100 * d.items.length

/-- Reads at the node of an alias, and goes on after the alias. -/
def follow {α : Type} (d : Document) (read : Reader α) : Reader α := fun p =>
  match p.rest with
  | (.alias anchor, _) :: rest =>
    if d.followLimit ≤ p.followed then .error ⟨.tooManyAliases, none⟩
    else do
      let (a, q) ← read ⟨d.target anchor, p.followed + 1⟩
      .ok (a, { q with rest })
  | _ => read p

/-- Reads a node by its first item; an error about it is placed there. -/
def readNode {α : Type} (d : Document) (path : Path) (read : Item → Reader α) : Reader α :=
  d.follow fun p =>
    match p.rest with
    | [] => .error d.endError
    | (item, m) :: rest => (read item { p with rest }).mapError (·.inPart path m)

def wrongKind {α : Type} (d : Document) (wanted : Wanted) (item : Item) : Except Error α := do
  let found ← match item with
    | .scalar s => s.resolve
    | .sequenceStart _ => .ok .sequence
    | .mappingStart _ => .ok .mapping
    | _ => .error d.endError
  .error ⟨.mismatch ⟨found, wanted⟩, none⟩

/-- Reads the text of a scalar, whatever it stands for. -/
def readText (d : Document) (wanted : Wanted) (path : Path) : Reader String :=
  d.readNode path fun item p =>
    match item with
    | .scalar s => .ok (s.text, p)
    | _ => d.wrongKind wanted item

def readValue (d : Document) (path : Path) : Reader Value :=
  d.readNode path fun item p => do
    let found ← match item with
      | .scalar s => if isOwnTag s.tag then .ok .tagged else s.resolve
      | .sequenceStart tag => .ok (if isOwnTag tag then .tagged else .sequence)
      | .mappingStart tag => .ok (if isOwnTag tag then .tagged else .mapping)
      | .nothing => .ok .absent
      | _ => .error d.endError
    match Value.ofFound found with
    | .ok v => .ok (v, p)
    | .error m => .error ⟨.mismatch m, none⟩

def readOptional {α : Type} (d : Document) (read : Reader α) : Reader (Option α) :=
  d.follow fun p => do
    let absent ← match p.rest with
      | [] => .error d.endError
      | (.scalar s, _) :: _ => s.isAbsent
      | (.nothing, _) :: _ => .ok true
      | _ => .ok false
    if absent then .ok (none, { p with rest := p.rest.tail })
    else
      let (a, p) ← read p
      .ok (some a, p)

def readElements {α : Type} (d : Document) (read : Path → Reader α) (path : Path) :
    Nat → Nat → Reader (List α)
  | 0, _, _ => .error d.endError
  | fuel + 1, index, p =>
    match p.rest with
    | [] => .error d.endError
    | (.sequenceEnd, _) :: rest => .ok ([], { p with rest })
    | _ => do
      let (a, p) ← read (.element path index) p
      let (as, p) ← readElements d read path fuel (index + 1) p
      .ok (a :: as, p)

def readList {α : Type} (d : Document) (read : Path → Reader α) (path : Path) : Reader (List α) :=
  d.readNode path fun item p =>
    match item with
    | .sequenceStart _ => d.readElements read path (p.rest.length + 1) 0 p
    | .scalar s => if s.isLeftOut then .ok ([], p) else d.wrongKind .sequence item
    | _ => d.wrongKind .sequence item

/-- Skips a node that has so many collections open. -/
def skipNode (d : Document) : Nat → List (Marked Item) → Except Error (List (Marked Item))
  | _, [] => .error d.endError
  | opened, (item, _) :: rest =>
    let opened := match item with
      | .sequenceStart _ | .mappingStart _ => opened + 1
      | .sequenceEnd | .mappingEnd => opened - 1
      | _ => opened
    if opened = 0 then .ok rest else skipNode d opened rest

/-- What a key means for the fields read so far. -/
inductive Field (σ : Type) where
  | unknown
  | repeated
  | value (read : Path → Reader σ)

/-- A field that is read into its place, once. -/
def Field.once {α σ : Type} (present : Option α) (read : Path → Reader α) (set : α → σ) : Field σ :=
  if present.isSome then .repeated
  else .value fun path p => do
    let (a, p) ← read path p
    .ok (set a, p)

/-- The part that belongs to a key, by the item that stands for the key. -/
def keyPath (path : Path) : Item → Path
  | .scalar s => .member path s.text
  | _ => .unnamed path

def readMembers {σ : Type} (d : Document) (field : σ → String → Field σ) (path : Path) :
    Nat → σ → Reader σ
  | 0, _, _ => .error d.endError
  | fuel + 1, fields, p =>
    match p.rest with
    | [] => .error d.endError
    | (.mappingEnd, _) :: rest => .ok (fields, { p with rest })
    | (item, _) :: _ => do
      let (key, p) ← d.readText .fieldName path p
      match field fields key with
      | .repeated => .error ⟨.duplicateField key, none⟩
      | .value read =>
        let (fields, p) ← read (keyPath path item) p
        readMembers d field path fuel fields p
      | .unknown =>
        let rest ← d.skipNode 0 p.rest
        readMembers d field path fuel fields { p with rest }

/-- Reads a mapping; what is left out reads as an empty one. -/
def readMapping {σ : Type} (d : Document) (wanted : Wanted) (field : σ → String → Field σ)
    (fields : σ) (path : Path) : Reader σ :=
  d.readNode path fun item p =>
    match item with
    | .mappingStart _ => d.readMembers field path (p.rest.length + 1) fields p
    | .nothing => .ok (fields, p)
    | .scalar s => if s.isLeftOut then .ok (fields, p) else d.wrongKind wanted item
    | _ => d.wrongKind wanted item

/-- The fields of an example that have been read; each may be null. -/
structure ExampleFields where
  arguments : Option (Option (List Value)) := none
  returns : Option (Option Value) := none

def ExampleFields.toExample (f : ExampleFields) : Example :=
  { arguments := f.arguments.join, returns := f.returns.join }

def exampleField (d : Document) (f : ExampleFields) (key : String) : Field ExampleFields :=
  if key = "arguments" then
    .once f.arguments (fun path => d.readOptional (d.readList d.readValue path))
      fun a => { f with arguments := some a }
  else if key = "return" then
    .once f.returns (fun path => d.readOptional (d.readValue path))
      fun r => { f with returns := some r }
  else .unknown

def readExample (d : Document) (path : Path) : Reader Example := fun p => do
  let (fields, p) ← d.readMapping .exampleOfSpec d.exampleField {} path p
  .ok (fields.toExample, p)

/-- The fields of a spec that have been read; the examples may be null. -/
structure SpecFields where
  subject : Option String := none
  examples : Option (Option (List Example)) := none

def SpecFields.toSpec (f : SpecFields) : Spec :=
  { subject := f.subject.getD "", examples := f.examples.join }

def specField (d : Document) (f : SpecFields) (key : String) : Field SpecFields :=
  if key = "subject" then
    .once f.subject (d.readText .text) fun s => { f with subject := some s }
  else if key = "examples" then
    .once f.examples (fun path => d.readOptional (d.readList d.readExample path))
      fun es => { f with examples := some es }
  else .unknown

def readSpec (d : Document) (path : Path) : Reader Spec := fun p => do
  let (fields, p) ← d.readMapping .spec d.specField {} path p
  .ok (fields.toSpec, p)

end Document

/-- Reads the only document of a source. Its first error counts; what is wrong
after the part that is read comes last. -/
def readAll {α : Type} (read : Document → Path → Reader α) (source : String) : Except Error α := do
  let d := Document.ofSource source
  let (a, _) ← read d .root ⟨d.items, 0⟩
  match d.broken with
  | some b => .error ⟨.broken b, none⟩
  | none => if d.followed then .error ⟨.severalDocuments, none⟩ else .ok a

def parseSpec : String → Except Error Spec := readAll Document.readSpec

def parseValue : String → Except Error Value := readAll Document.readValue

end ExampleTests.Yaml

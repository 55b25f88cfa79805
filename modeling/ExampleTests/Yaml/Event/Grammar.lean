import ExampleTests.Yaml.Event
import ExampleTests.Yaml.Token.Stream

/-! The grammar that turns tokens into events. What may come next is a rule;
the rules to return to, and the places where open collections began, are kept
on stacks. Nodes that are left out become empty scalars. -/

namespace ExampleTests.Yaml

inductive Rule where
  /-- The first document, which needs no mark at its start. -/
  | bareDocument
  | document
  | documentContent
  | documentEnd
  | blockNode
  | blockSequence (first : Bool)
  /-- Entries in the column of the key that they belong to. -/
  | flatSequence
  | blockKey (first : Bool)
  | blockValue
  | flowSequence (first : Bool)
  /-- A pair that stands in a flow sequence without braces. -/
  | pairKey
  | pairValue
  | pairEnd
  | flowKey (first : Bool)
  | flowValue
  /-- The value of a key without a colon. -/
  | flowNoValue
  | finished
deriving DecidableEq

structure Grammar where
  tokens : List Token
  /-- The fault after the last token. -/
  fault : Option Fault
  rule : Rule := .bareDocument
  returns : List Rule := []
  starts : List Mark := []
  handles : List (String × Bytes) := []

/-- The next event, with the grammar after it. -/
abbrev Produced := Except Fault (Marked Event × Grammar)

def secondaryPrefix : Bytes := Text.encode "tag:yaml.org,2002:"

def defaultHandles : List (String × Bytes) := [("!", Text.encode "!"), ("!!", secondaryPrefix)]

namespace Grammar

def peek (g : Grammar) : Except Fault Token :=
  match g.tokens with
  | t :: _ => .ok t
  | [] => .error (g.fault.getD (.malformed .endOfStream {} none))

def skip (g : Grammar) : Grammar := { g with tokens := g.tokens.tail }

def goto (g : Grammar) (rule : Rule) : Grammar := { g with rule }

/-- A rule to return to after the next node. -/
def later (g : Grammar) (rule : Rule) : Grammar := { g with returns := rule :: g.returns }

def back (g : Grammar) : Grammar :=
  { g with rule := g.returns.head?.getD .finished, returns := g.returns.tail }

def produce (g : Grammar) (e : Event) (m : Mark) : Produced := .ok ((e, m), g)

def emptyScalar (g : Grammar) (m : Mark) : Produced := g.produce (.scalar none {}) m

/-- Opens a collection at its first token, if it has not been opened. -/
def enter (g : Grammar) (first : Bool) : Except Fault Grammar := do
  if first then
    let t ← g.peek
    .ok { g with starts := t.start :: g.starts }.skip
  else .ok g

def leave (g : Grammar) (e : Event) : Produced := do
  let t ← g.peek
  { g with starts := g.starts.tail }.back.skip.produce e t.start

def failInside {α : Type} (g : Grammar) (t : Token) (problem : Problem) (context : Context) :
    Except Fault α :=
  .error (.malformed problem t.start (some (context, g.starts.head?.getD {})))

/-- The anchor and the tag in front of a node, in any order. -/
def properties (g : Grammar) : Except Fault (Option String × Option (String × Bytes × Mark) × Grammar) := do
  let t ← g.peek
  match t.lexeme with
  | .anchor name =>
    let g := g.skip
    let t ← g.peek
    match t.lexeme with
    | .tag handle suffix => .ok (some name, some (handle, suffix, t.start), g.skip)
    | _ => .ok (some name, none, g)
  | .tag handle suffix =>
    let g := g.skip
    let tag := some (handle, suffix, t.start)
    let t ← g.peek
    match t.lexeme with
    | .anchor name => .ok (some name, tag, g.skip)
    | _ => .ok (none, tag, g)
  | _ => .ok (none, none, g)

/-- The whole tag for a handle and a suffix. -/
def resolveTag (g : Grammar) (start : Mark) : Option (String × Bytes × Mark) → Except Fault (Option Bytes)
  | none => .ok none
  | some (handle, suffix, m) =>
    if handle.isEmpty then .ok (some suffix)
    else
      match g.handles.lookup handle with
      | some uri => .ok (some (uri ++ suffix))
      | none => .error (.malformed .undefinedTagHandle m (some (.node, start)))

/-- A node. Blocks are read only where `block` is set, entries without their
own indentation only where `flat` is. -/
def node (g : Grammar) (block flat : Bool) : Produced := do
  let first ← g.peek
  if let .alias name := first.lexeme then
    return ← g.back.skip.produce (.alias name) first.start
  let (anchor, parts, g) ← g.properties
  let tag ← g.resolveTag first.start parts
  let t ← g.peek
  let p : Properties := { anchor, tag }
  match t.lexeme, block, flat with
  | .blockEntry, _, true => (g.goto .flatSequence).produce (.sequenceStart p) first.start
  | .scalar text style, _, _ =>
    g.back.skip.produce (.scalar anchor { text, style, tag }) first.start
  | .flowSequenceStart, _, _ => (g.goto (.flowSequence true)).produce (.sequenceStart p) first.start
  | .flowMappingStart, _, _ => (g.goto (.flowKey true)).produce (.mappingStart p) first.start
  | .blockSequenceStart, true, _ =>
    (g.goto (.blockSequence true)).produce (.sequenceStart p) first.start
  | .blockMappingStart, true, _ => (g.goto (.blockKey true)).produce (.mappingStart p) first.start
  | _, _, _ =>
    if anchor.isSome || tag.isSome then g.back.produce (.scalar anchor { tag }) first.start
    else
      let context := if block then Context.blockNode else .flowNode
      .error (.malformed .noNode t.start (some (context, first.start)))

def directives (fault : Option Fault) :
    List Token → Bool → List (String × Bytes) → Except Fault (List Token × List (String × Bytes))
  | [], _, _ => .error (fault.getD (.malformed .endOfStream {} none))
  | t :: ts, versioned, handles =>
    let fail (problem : Problem) := .error (.malformed problem t.start none)
    match t.lexeme with
    | .version major minor =>
      if versioned then fail .duplicateVersion
      else if major ≠ 1 || (minor ≠ 1 && minor ≠ 2) then fail .incompatible
      else directives fault ts true handles
    | .tagHandle handle uri =>
      if (handles.lookup handle).isSome then fail .duplicateTagHandle
      else directives fault ts versioned (handles ++ [(handle, uri)])
    | _ => .ok (t :: ts, handles)

def isDirective : Lexeme → Bool
  | .version .. | .tagHandle .. => true
  | _ => false

/-- A document that begins with its mark, or the end of the stream. -/
def markedDocument (g : Grammar) : Produced := do
  let first ← g.peek
  if first.lexeme = .streamEnd then (g.goto .finished).skip.produce .streamEnd first.start
  else
    let (tokens, handles) ← directives g.fault g.tokens false []
    let g := { g with tokens, handles := handles ++ defaultHandles }
    let t ← g.peek
    if t.lexeme ≠ .documentStart then .error (.malformed .noDocumentStart t.start none)
    else ((g.later .documentEnd).goto .documentContent).skip.produce .documentStart first.start

def bareDocument (g : Grammar) : Produced := do
  let t ← g.peek
  if isDirective t.lexeme || t.lexeme = .documentStart || t.lexeme = .streamEnd then g.markedDocument
  else
    let g := { g with handles := defaultHandles }
    ((g.later .documentEnd).goto .blockNode).produce .documentStart t.start

/-- The next document, after marks that end the one before it. -/
def document (g : Grammar) : Produced :=
  { g with tokens := g.tokens.dropWhile (·.lexeme = Lexeme.documentEnd) }.markedDocument

def documentContent (g : Grammar) : Produced := do
  let t ← g.peek
  if isDirective t.lexeme || t.lexeme = .documentStart || t.lexeme = .documentEnd ||
      t.lexeme = .streamEnd then
    g.back.emptyScalar t.start
  else g.node true false

def documentEnd (g : Grammar) : Produced := do
  let t ← g.peek
  let g := if t.lexeme = .documentEnd then g.skip else g
  (g.goto .document).produce .documentEnd t.start

def blockSequence (g : Grammar) (first : Bool) : Produced := do
  let g ← g.enter first
  let t ← g.peek
  match t.lexeme with
  | .blockEntry =>
    let g := g.skip
    let next ← g.peek
    match next.lexeme with
    | .blockEntry | .blockEnd => (g.goto (.blockSequence false)).emptyScalar t.stop
    | _ => (g.later (.blockSequence false)).node true false
  | .blockEnd => g.leave .sequenceEnd
  | _ => g.failInside t .noDash .blockCollection

def flatSequence (g : Grammar) : Produced := do
  let t ← g.peek
  match t.lexeme with
  | .blockEntry =>
    let g := g.skip
    let next ← g.peek
    match next.lexeme with
    | .blockEntry | .key | .value | .blockEnd => (g.goto .flatSequence).emptyScalar t.stop
    | _ => (g.later .flatSequence).node true false
  | _ => g.back.produce .sequenceEnd t.start

/-- The node after a key or a colon in a block; it may be left out. -/
def blockPart (g : Grammar) (next : Rule) (m : Mark) : Produced := do
  let t ← g.peek
  match t.lexeme with
  | .key | .value | .blockEnd => (g.goto next).emptyScalar m
  | _ => (g.later next).node true true

def blockKey (g : Grammar) (first : Bool) : Produced := do
  let g ← g.enter first
  let t ← g.peek
  match t.lexeme with
  | .key => g.skip.blockPart .blockValue t.stop
  | .blockEnd => g.leave .mappingEnd
  | _ => g.failInside t .noKey .blockMapping

def blockValue (g : Grammar) : Produced := do
  let t ← g.peek
  match t.lexeme with
  | .value => g.skip.blockPart (.blockKey false) t.stop
  | _ => (g.goto (.blockKey false)).emptyScalar t.start

/-- Goes over the comma between two entries of a flow collection. -/
def flowComma (g : Grammar) (first : Bool) (stop : Lexeme) (problem : Problem) (context : Context) :
    Except Fault Grammar := do
  let t ← g.peek
  if t.lexeme = stop || first then .ok g
  else if t.lexeme = .flowEntry then .ok g.skip
  else g.failInside t problem context

def flowSequence (g : Grammar) (first : Bool) : Produced := do
  let g ← g.enter first
  let g ← g.flowComma first .flowSequenceEnd .noCommaOrBracket .flowSequence
  let t ← g.peek
  match t.lexeme with
  | .flowSequenceEnd => g.leave .sequenceEnd
  | .key => (g.goto .pairKey).skip.produce (.mappingStart {}) t.start
  | _ => (g.later (.flowSequence false)).node false false

/-- A pair with no key loses the token after its mark. -/
def pairKey (g : Grammar) : Produced := do
  let t ← g.peek
  match t.lexeme with
  | .value | .flowEntry | .flowSequenceEnd => (g.goto .pairValue).skip.emptyScalar t.stop
  | _ => (g.later .pairValue).node false false

def pairValue (g : Grammar) : Produced := do
  let t ← g.peek
  if t.lexeme = .value then
    let g := g.skip
    let t ← g.peek
    match t.lexeme with
    | .flowEntry | .flowSequenceEnd => (g.goto .pairEnd).emptyScalar t.start
    | _ => (g.later .pairEnd).node false false
  else (g.goto .pairEnd).emptyScalar t.start

def pairEnd (g : Grammar) : Produced := do
  let t ← g.peek
  (g.goto (.flowSequence false)).produce .mappingEnd t.start

def flowKey (g : Grammar) (first : Bool) : Produced := do
  let g ← g.enter first
  let g ← g.flowComma first .flowMappingEnd .noCommaOrBrace .flowMapping
  let t ← g.peek
  match t.lexeme with
  | .flowMappingEnd => g.leave .mappingEnd
  | .key =>
    let g := g.skip
    let t ← g.peek
    match t.lexeme with
    | .value | .flowEntry | .flowMappingEnd => (g.goto .flowValue).emptyScalar t.start
    | _ => (g.later .flowValue).node false false
  | _ => (g.later .flowNoValue).node false false

def flowValue (g : Grammar) : Produced := do
  let t ← g.peek
  if t.lexeme = .value then
    let g := g.skip
    let t ← g.peek
    match t.lexeme with
    | .flowEntry | .flowMappingEnd => (g.goto (.flowKey false)).emptyScalar t.start
    | _ => (g.later (.flowKey false)).node false false
  else (g.goto (.flowKey false)).emptyScalar t.start

def flowNoValue (g : Grammar) : Produced := do
  let t ← g.peek
  (g.goto (.flowKey false)).emptyScalar t.start

def next (g : Grammar) : Produced :=
  match g.rule with
  | .bareDocument => g.bareDocument
  | .document => g.document
  | .documentContent => g.documentContent
  | .documentEnd => g.documentEnd
  | .blockNode => g.node true false
  | .blockSequence first => g.blockSequence first
  | .flatSequence => g.flatSequence
  | .blockKey first => g.blockKey first
  | .blockValue => g.blockValue
  | .flowSequence first => g.flowSequence first
  | .pairKey => g.pairKey
  | .pairValue => g.pairValue
  | .pairEnd => g.pairEnd
  | .flowKey first => g.flowKey first
  | .flowValue => g.flowValue
  | .flowNoValue => g.flowNoValue
  | .finished => g.produce .streamEnd {}

/-- All events up to the end of the stream, or the fault in front of it. -/
def events : Nat → Grammar → List (Marked Event) × Option Fault
  | 0, _ => ([], none)
  | fuel + 1, g =>
    match g.next with
    | .error fault => ([], some fault)
    | .ok (e, g) =>
      if g.rule = .finished then ([e], none)
      else
        let (es, fault) := events fuel g
        (e :: es, fault)

end Grammar

/-- Each token is taken by one event, and at most three more events stand
between two that take a token. -/
def events (source : String) : List (Marked Event) × Option Fault :=
  match tokens source with
  | ([], fault) => ([], fault)
  | (_ :: ts, fault) => Grammar.events (4 * ts.length + 16) { tokens := ts, fault }

end ExampleTests.Yaml

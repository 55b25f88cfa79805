import ExampleTests.Yaml.Token.Block
import ExampleTests.Yaml.Token.Plain

/-! The tokens of a source, one after the other. What a token means can hang
on a colon later in its line, so a token is given out only when it can no
longer turn out to be the start of a key. A fault comes after all tokens that
can be given out before it. -/

namespace ExampleTests.Yaml

open Cursor

/-- A token that is a key if a colon follows: its number among all tokens and
its place, and whether it must be one. -/
structure Candidate where
  required : Bool
  number : Nat
  mark : Mark

/-- The state between two tokens. There is a candidate, or none, for the block
and for each open flow collection. -/
structure Stream where
  cursor : Cursor
  /-- Tokens that have been read and not given out. -/
  waiting : List Token := []
  /-- How many tokens have been given out. -/
  given : Nat := 0
  /-- The column of the innermost block, and of those around it. -/
  indent : Int := -1
  outer : List Int := []
  blockKey : Option Candidate := none
  flowKeys : List (Option Candidate) := []
  /-- Whether a key may begin here. -/
  keyAllowed : Bool := true
  started : Bool := false

namespace Stream

def ofSource (source : String) : Stream := { cursor := Cursor.ofSource source }

def mark (s : Stream) : Mark := s.cursor.mark

def inFlow (s : Stream) : Bool := !s.flowKeys.isEmpty

def push (s : Stream) (t : Token) : Stream := { s with waiting := s.waiting ++ [t] }

/-- Puts a token in front of one that has its number. -/
def insert (s : Stream) (number : Nat) (t : Token) : Stream :=
  { s with waiting := s.waiting.insertIdx (number - s.given) t }

def fail {α : Type} (s : Stream) (problem : Problem) : Except Fault α :=
  .error (.malformed problem s.mark none)

def candidate (s : Stream) : Option Candidate :=
  match s.flowKeys with
  | [] => s.blockKey
  | k :: _ => k

def setCandidate (s : Stream) (k : Option Candidate) : Stream :=
  match s.flowKeys with
  | [] => { s with blockKey := k }
  | _ :: rest => { s with flowKeys := k :: rest }

/-- Fails if a token had to be a key and cannot. -/
def giveUp (s : Stream) (k : Candidate) : Except Fault Unit :=
  if k.required then s.cursor.fail .noColon .simpleKey k.mark else .ok ()

def dropCandidate (s : Stream) : Except Fault Stream := do
  if let some k := s.candidate then s.giveUp k
  .ok (s.setCandidate none)

def longestKey : Nat := 1024

/-- A key ends on its line and has a length limit. -/
def isStale (m : Mark) (k : Candidate) : Bool :=
  k.mark.line < m.line || k.mark.index + longestKey < m.index

def dropIfStale (s : Stream) : Option Candidate → Except Fault (Option Candidate)
  | none => .ok none
  | some k => do
    if isStale s.mark k then
      s.giveUp k
      .ok none
    else .ok (some k)

/-- Drops all candidates that can no longer be keys, the outermost first. -/
def dropStale (s : Stream) : Except Fault Stream := do
  let blockKey ← s.dropIfStale s.blockKey
  let flowKeys ← s.flowKeys.reverse.mapM s.dropIfStale
  .ok { s with blockKey, flowKeys := flowKeys.reverse }

/-- Makes the next token a candidate, where keys may begin. -/
def saveCandidate (s : Stream) : Except Fault Stream := do
  if s.keyAllowed then
    let k : Candidate :=
      { required := !s.inFlow && s.indent = s.cursor.column
        number := s.given + s.waiting.length
        mark := s.mark }
    .ok ((← s.dropCandidate).setCandidate (some k))
  else .ok s

/-- Opens a block at a column to the right of the innermost one. -/
def openBlock (s : Stream) (column number : Nat) (lexeme : Lexeme) (m : Mark) : Stream :=
  if !s.inFlow && s.indent < column then
    { s with indent := column, outer := s.indent :: s.outer }.insert number ⟨lexeme, m, m⟩
  else s

def closeBlocks (column : Int) : List Int → Stream → Stream
  | [], s => s
  | indent :: outer, s =>
    if column < s.indent then
      closeBlocks column outer ({ s with indent, outer }.push ⟨.blockEnd, s.mark, s.mark⟩)
    else s

def closeTo (s : Stream) (column : Int) : Stream :=
  if s.inFlow then s else closeBlocks column s.outer s

def byteOrderMark : Char := '\uFEFF'

/-- Skips blanks, comments and breaks. A new line in a block may begin with a
key; a tab is blank only where no key can begin. -/
def skipSpaces (inFlow : Bool) : Nat → Bool → Cursor → Bool × Cursor
  | 0, keyAllowed, c => (keyAllowed, c)
  | fuel + 1, keyAllowed, c =>
    let c := if c.mark.index = 0 && c.isAt byteOrderMark then c.advance 1 else c
    let c := c.skip fun x => x = ' ' || ((inFlow || !keyAllowed) && x = '\t')
    let c := if c.isAt '#' then c.skipLine else c
    match c.lineBreak? with
    | some (_, c) => skipSpaces inFlow fuel (keyAllowed || !inFlow) c
    | none => (keyAllowed, c)

def toNextToken (s : Stream) : Stream :=
  let (keyAllowed, cursor) := skipSpaces s.inFlow (s.cursor.rest.length + 1) s.keyAllowed s.cursor
  { s with keyAllowed, cursor }

def take (s : Stream) (length : Nat) (lexeme : Lexeme) : Stream :=
  let cursor := s.cursor.advance length
  { s with cursor }.push ⟨lexeme, s.mark, cursor.mark⟩

/-- Ends the stream at the start of a line. -/
def takeEnd (s : Stream) : Except Fault Stream := do
  let m := s.mark
  let m := if m.column = 0 then m else { m with line := m.line + 1, column := 0 }
  let s := { s with cursor := ⟨s.cursor.rest, m⟩ }.closeTo (-1)
  let s ← s.dropCandidate
  .ok ({ s with keyAllowed := false }.push ⟨.streamEnd, m, m⟩)

def takeDirective (s : Stream) : Except Fault Stream := do
  let s ← (s.closeTo (-1)).dropCandidate
  let (t, cursor) ← scanDirective s.cursor
  .ok ({ s with cursor, keyAllowed := false }.push t)

def takeBoundary (s : Stream) (lexeme : Lexeme) : Except Fault Stream := do
  let s ← (s.closeTo (-1)).dropCandidate
  .ok ({ s with keyAllowed := false }.take 3 lexeme)

def takeFlowStart (s : Stream) (lexeme : Lexeme) : Except Fault Stream := do
  let s ← s.saveCandidate
  .ok ({ s with flowKeys := none :: s.flowKeys, keyAllowed := true }.take 1 lexeme)

def takeFlowEnd (s : Stream) (lexeme : Lexeme) : Except Fault Stream := do
  let s ← s.dropCandidate
  .ok ({ s with flowKeys := s.flowKeys.tail, keyAllowed := false }.take 1 lexeme)

def takeFlowEntry (s : Stream) : Except Fault Stream := do
  let s ← s.dropCandidate
  .ok ({ s with keyAllowed := true }.take 1 .flowEntry)

/-- Opens a block for an indicator at the cursor, which must be allowed. -/
def openFor (s : Stream) (problem : Problem) (lexeme : Lexeme) : Except Fault Stream :=
  if s.inFlow then .ok s
  else if s.keyAllowed then
    .ok (s.openBlock s.cursor.column (s.given + s.waiting.length) lexeme s.mark)
  else s.fail problem

def takeBlockEntry (s : Stream) : Except Fault Stream := do
  let s ← s.openFor .entryNotAllowed .blockSequenceStart
  let s ← s.dropCandidate
  .ok ({ s with keyAllowed := true }.take 1 .blockEntry)

def takeKey (s : Stream) : Except Fault Stream := do
  let s ← s.openFor .keyNotAllowed .blockMappingStart
  let s ← s.dropCandidate
  .ok ({ s with keyAllowed := !s.inFlow }.take 1 .key)

/-- A colon makes the candidate a key, or follows a key with its own mark. -/
def takeValue (s : Stream) : Except Fault Stream := do
  match s.candidate with
  | some k =>
    let s := s.insert k.number ⟨.key, k.mark, k.mark⟩
    let s := s.openBlock k.mark.column k.number .blockMappingStart k.mark
    .ok ({ s.setCandidate none with keyAllowed := false }.take 1 .value)
  | none =>
    let s ← s.openFor .valueNotAllowed .blockMappingStart
    .ok ({ s with keyAllowed := !s.inFlow }.take 1 .value)

def takeCandidate (s : Stream) (scan : Scanner Lexeme) : Except Fault Stream := do
  let s ← s.saveCandidate
  let (lexeme, cursor) ← scan s.cursor
  .ok ({ s with cursor, keyAllowed := false }.push ⟨lexeme, s.mark, cursor.mark⟩)

def takeBlock (s : Stream) (style : BlockStyle) : Except Fault Stream := do
  let s ← s.dropCandidate
  let (t, cursor) ← scanBlock s.indent style s.cursor
  .ok ({ s with cursor, keyAllowed := true }.push t)

def takePlain (s : Stream) : Except Fault Stream := do
  let s ← s.saveCandidate
  let (t, lineEnded, cursor) ← scanPlain s.inFlow s.indent s.cursor
  .ok ({ s with cursor, keyAllowed := lineEnded }.push t)

def takeName (s : Stream) (context : Context) (lexeme : String → Lexeme) : Except Fault Stream :=
  s.takeCandidate fun c => do
    let (name, c) ← scanName context c
    .ok (lexeme name, c)

/-- Characters that begin something else than a plain scalar. -/
def indicators : List Char :=
  ['-', '?', ':', ',', '[', ']', '{', '}', '#', '&', '*', '!', '|', '>', '\x27', '"', '%', '@', '\x60']

def atPlain (s : Stream) : Bool :=
  let c := s.cursor
  !(c.spaceOrEnd 0 || c.head?.any indicators.contains) ||
    (c.isAt '-' && !(c.peek? 1).any isBlank) ||
    (!s.inFlow && (c.isAt '?' || c.isAt ':') && !c.spaceOrEnd 1)

/-- Takes the token at the cursor, by its first characters. -/
def takeToken (s : Stream) : Except Fault Stream :=
  let c := s.cursor
  let alone := c.spaceOrEnd 1
  if c.atEnd then s.takeEnd
  else if c.column = 0 && c.isAt '%' then s.takeDirective
  else if c.atDocumentIndicator '-' then s.takeBoundary .documentStart
  else if c.atDocumentIndicator '.' then s.takeBoundary .documentEnd
  else if c.isAt '[' then s.takeFlowStart .flowSequenceStart
  else if c.isAt '{' then s.takeFlowStart .flowMappingStart
  else if c.isAt ']' then s.takeFlowEnd .flowSequenceEnd
  else if c.isAt '}' then s.takeFlowEnd .flowMappingEnd
  else if c.isAt ',' then s.takeFlowEntry
  else if c.isAt '-' && alone then s.takeBlockEntry
  else if c.isAt '?' && (s.inFlow || alone) then s.takeKey
  else if c.isAt ':' && (s.inFlow || alone) then s.takeValue
  else if c.isAt '*' then s.takeName .aliasName .alias
  else if c.isAt '&' then s.takeName .anchor .anchor
  else if c.isAt '!' then s.takeCandidate (scanTag s.inFlow)
  else if c.isAt '|' && !s.inFlow then s.takeBlock .literal
  else if c.isAt '>' && !s.inFlow then s.takeBlock .folded
  else if c.isAt '\x27' then s.takeCandidate (scanQuoted .single)
  else if c.isAt '"' then s.takeCandidate (scanQuoted .double)
  else if s.atPlain then s.takePlain
  else c.fail .noToken .nextToken c.mark

/-- Reads one more token, with the ends of blocks in front of it. -/
def readMore (s : Stream) : Except Fault Stream := do
  if !s.started then .ok ({ s with started := true }.push ⟨.streamStart, s.mark, s.mark⟩)
  else
    let s ← s.toNextToken.dropStale
    (s.closeTo s.cursor.column).takeToken

/-- Whether the first waiting token may still turn out to be a key. -/
def firstIsCandidate (s : Stream) : Bool :=
  (s.blockKey :: s.flowKeys).any (·.any (·.number = s.given))

/-- All tokens, and the fault that ends them, if one does. -/
def tokens : Nat → Stream → List Token × Option Fault
  | 0, _ => ([], none)
  | fuel + 1, s =>
    let settled := if s.waiting.isEmpty then .ok s else s.dropStale
    match settled with
    | .error fault => ([], some fault)
    | .ok s =>
      match s.waiting with
      | t :: waiting =>
        if s.firstIsCandidate then
          match s.readMore with
          | .error fault => ([], some fault)
          | .ok s => tokens fuel s
        else if t.lexeme = .streamEnd then ([t], none)
        else
          let (ts, fault) := tokens fuel { s with waiting, given := s.given + 1 }
          (t :: ts, fault)
      | [] =>
        match s.readMore with
        | .error fault => ([], some fault)
        | .ok s => tokens fuel s

end Stream

/-- Each step over a character gives at most four tokens and the end of each
block that it opens, so six steps for a character are enough. -/
def tokens (source : String) : List Token × Option Fault :=
  let s := Stream.ofSource source
  match disallowedAt? 0 s.cursor.rest with
  | some offset => ([], some (.disallowed offset))
  | none => Stream.tokens (6 * s.cursor.rest.length + 16) s

end ExampleTests.Yaml

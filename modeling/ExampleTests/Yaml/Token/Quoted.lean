import ExampleTests.Yaml.Token.Name

/-! Scalars in single or double quotes, and the folding of line breaks that
they share with plain scalars: one break becomes a space, each further break
stays. -/

namespace ExampleTests.Yaml

open Cursor

structure Gap where
  blanks : List Char := []
  /-- The first break, if one has been seen. -/
  first : Option Char := none
  breaks : List Char := []
  /-- Whether blanks no longer count, since a line has ended. -/
  folded : Bool := false

namespace Gap

/-- What the gap stands for if more text follows it. -/
def text (g : Gap) : List Char :=
  if !g.folded then g.blanks
  else if g.first = some '\n' then (if g.breaks.isEmpty then [' '] else g.breaks)
  else g.first.toList ++ g.breaks

def addBreak (g : Gap) (x : Char) : Gap :=
  if g.folded then { g with breaks := g.breaks ++ [x] }
  else { g with blanks := [], first := some x, folded := true }

end Gap

/-- Reads blanks and breaks, of which there are at most `fuel`. In lines after
the first no tab may stand to the left of the indentation. -/
def scanGap (indent : Int) (start : Mark) : Nat → Gap → Scanner Gap
  | 0, g, c => .ok (g, c)
  | fuel + 1, g, c =>
    match c.lineBreak? with
    | some (x, c) => scanGap indent start fuel (g.addBreak x) c
    | none =>
      match c.head? with
      | none => .ok (g, c)
      | some x =>
        if !isBlank x then .ok (g, c)
        else if g.folded && (c.column : Int) < indent && x = '\t' then
          c.fail .tabInIndentation .plainScalar start
        else
          let g := if g.folded then g else { g with blanks := g.blanks ++ [x] }
          scanGap indent start fuel g (c.advance 1)

inductive Quote where
  | single
  | double
deriving DecidableEq

def Quote.char : Quote → Char
  | single => '\x27'
  | double => '"'

def simpleEscape? (x : Char) : Option Char :=
  match x with
  | '0' => some '\x00'
  | 'a' => some '\x07'
  | 'b' => some '\x08'
  | 't' => some '\t'
  | '\t' => some '\t'
  | 'n' => some '\n'
  | 'v' => some '\x0b'
  | 'f' => some '\x0c'
  | 'r' => some '\r'
  | 'e' => some '\x1b'
  | ' ' => some ' '
  | '"' => some '"'
  | '/' => some '/'
  | '\\' => some '\\'
  | 'N' => some '\x85'
  | '_' => some '\xa0'
  | 'L' => some '\u2028'
  | 'P' => some '\u2029'
  | _ => none

/-- How many hexadecimal digits follow the letter of an escape. -/
def escapeWidth? (x : Char) : Option Nat :=
  match x with
  | 'x' => some 2
  | 'u' => some 4
  | 'U' => some 8
  | _ => none

/-- An escape after its backslash, where the cursor stands on the backslash. -/
def scanEscape (start : Mark) : Scanner Char := fun c =>
  match c.peek? 1 with
  | none => c.fail .unknownEscape .escape start
  | some x =>
    match simpleEscape? x, escapeWidth? x with
    | some y, _ => .ok (y, c.advance 2)
    | none, none => c.fail .unknownEscape .escape start
    | none, some width =>
      let c := c.advance 2
      match (c.rest.take width).mapM hexDigit? with
      | none => c.fail .noHexadecimal .escape start
      | some digits =>
        let code := digits.foldl (fun n d => 16 * n + d) 0
        if digits.length < width then c.fail .noHexadecimal .escape start
        else if h : code.isValidChar then .ok (Char.ofNatAux code h, c.advance width)
        else c.fail .invalidCodePoint .escape start

/-- Text up to a space, a break, the end or the closing quote. An escaped
break ends it too, and is told in the result. -/
def scanQuotedPart (q : Quote) (start : Mark) : Nat → Scanner (List Char × Bool)
  | 0, c => .ok (([], false), c)
  | fuel + 1, c =>
    match c.head? with
    | none => .ok (([], false), c)
    | some x =>
      if isSpace x then .ok (([], false), c)
      else if q = .single && x = q.char && c.peek? 1 = some q.char then do
        let ((text, escaped), c) ← scanQuotedPart q start fuel (c.advance 2)
        .ok ((x :: text, escaped), c)
      else if x = q.char then .ok (([], false), c)
      else if q = .double && x = '\\' then
        match (c.advance 1).lineBreak? with
        | some (_, c) => .ok (([], true), c)
        | none => do
          let (y, c) ← scanEscape start c
          let ((text, escaped), c) ← scanQuotedPart q start fuel c
          .ok ((y :: text, escaped), c)
      else do
        let ((text, escaped), c) ← scanQuotedPart q start fuel (c.advance 1)
        .ok ((x :: text, escaped), c)

def scanQuotedText (q : Quote) (start : Mark) : Nat → Scanner (List Char)
  | 0, c => c.fail .endOfStream .quotedScalar start
  | fuel + 1, c =>
    if c.atDocumentBoundary then c.fail .documentIndicator .quotedScalar start
    else if c.atEnd then c.fail .endOfStream .quotedScalar start
    else do
      let ((part, escaped), c) ← scanQuotedPart q start c.rest.length c
      if c.isAt q.char then .ok (part, c)
      else
        let (gap, c) ← scanGap 0 start c.rest.length { folded := escaped } c
        let (text, c) ← scanQuotedText q start fuel c
        .ok (part ++ gap.text ++ text, c)

def scanQuoted (q : Quote) : Scanner Lexeme := fun start => do
  let (text, c) ← scanQuotedText q start.mark (start.rest.length + 1) (start.advance 1)
  .ok (.scalar (String.ofList text) .quoted, c.advance 1)

end ExampleTests.Yaml

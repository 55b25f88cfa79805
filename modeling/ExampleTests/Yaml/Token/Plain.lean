import ExampleTests.Yaml.Token.Quoted

/-! Plain scalars. They end at a comment, at a colon that a space follows, at
the marks of a flow collection, or where the indentation ends. -/

namespace ExampleTests.Yaml

open Cursor

def flowIndicators : List Char := [',', '[', ']', '{', '}']

/-- A colon here could be the end of a key or a part of the text. -/
def isMisplacedColon (inFlow : Bool) (x : Char) (next : Option Char) : Bool :=
  inFlow && x = ':' && next.any ('?' :: flowIndicators).contains

def endsPlain (inFlow : Bool) (x : Char) (next : Option Char) : Bool :=
  (x = ':' && next.all isSpace) || (inFlow && flowIndicators.contains x)

/-- Text up to the next space or the end of the scalar, and whether a
misplaced colon ends it. -/
def plainPart (inFlow : Bool) : List Char → List Char × Bool
  | [] => ([], false)
  | x :: rest =>
    if isSpace x then ([], false)
    else if isMisplacedColon inFlow x rest.head? then ([], true)
    else if endsPlain inFlow x rest.head? then ([], false)
    else
      let (part, misplaced) := plainPart inFlow rest
      (x :: part, misplaced)

structure PlainText where
  text : List Char := []
  gap : Gap := {}
  stop : Mark

def scanPlainText (inFlow : Bool) (indent : Int) (start : Mark) : Nat → PlainText → Scanner PlainText
  | 0, p, c => .ok (p, c)
  | fuel + 1, p, c =>
    if c.atDocumentBoundary || c.isAt '#' then .ok (p, c)
    else do
      let (part, misplaced) := plainPart inFlow c.rest
      let c := c.advance part.length
      if misplaced then c.fail .unexpectedColon .plainScalar start
      else
        let p := if part.isEmpty then p
          else { text := p.text ++ p.gap.text ++ part, gap := {}, stop := c.mark }
        if !c.head?.any isSpace then .ok (p, c)
        else
          let (gap, c) ← scanGap indent start c.rest.length p.gap c
          let p := { p with gap := gap }
          if !inFlow && (c.column : Int) < indent then .ok (p, c)
          else scanPlainText inFlow indent start fuel p c

/-- A plain scalar; the flag tells whether a line has ended after it. -/
def scanPlain (inFlow : Bool) (indent : Int) : Cursor → Except Fault (Token × Bool × Cursor) := fun start => do
  let (p, c) ←
    scanPlainText inFlow (indent + 1) start.mark (start.rest.length + 1) { stop := start.mark } start
  .ok (⟨.scalar (String.ofList p.text) .plain, start.mark, p.stop⟩, p.gap.folded, c)

end ExampleTests.Yaml

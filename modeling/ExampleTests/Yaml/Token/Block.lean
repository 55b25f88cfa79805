import ExampleTests.Yaml.Token.Name

/-! Block scalars: their header, their indentation, and the lines that keep or
fold their breaks. -/

namespace ExampleTests.Yaml

open Cursor

/-- What becomes of the breaks at the end of a block scalar. -/
inductive Chomping where
  | strip
  | clip
  | keep
deriving DecidableEq

/-- Whether line breaks stay in the text or become spaces. -/
inductive BlockStyle where
  | literal
  | folded
deriving DecidableEq

def chomping? (x : Char) : Option Chomping :=
  if x = '+' then some .keep else if x = '-' then some .strip else none

def scanChomping : Cursor → Option Chomping × Cursor := fun c =>
  match c.head?.bind chomping? with
  | some chomping => (some chomping, c.advance 1)
  | none => (none, c)

/-- An indentation from one to nine. -/
def scanIncrement (start : Mark) : Scanner (Option Nat) := fun c =>
  match c.head? with
  | some '0' => c.fail .zeroIndentation .blockScalar start
  | some x => if x.isDigit then .ok (some (x.toNat - '0'.toNat), c.advance 1) else .ok (none, c)
  | none => .ok (none, c)

/-- The two indicators after `|` or `>`, in any order. -/
def scanHeader (start : Mark) : Scanner (Chomping × Option Nat) := fun c => do
  let (chomping, c) := scanChomping c
  let (increment, c) ← scanIncrement start c
  let (later, c) := if chomping.isNone && increment.isSome then scanChomping c else (none, c)
  .ok (((chomping <|> later).getD .clip, increment), c)

/-- Breaks in front of a line of text, with the indentation that is known
then, and where the last of them ended. -/
structure Lead where
  indent : Nat
  breaks : List Char
  stop : Mark

/-- Moves over the spaces of an indentation; all of them if it is not known. -/
def skipIndentation (indent : Nat) (c : Cursor) : Cursor :=
  let spaces := (c.rest.takeWhile (· == ' ')).length
  c.advance (if indent = 0 then spaces else min spaces (indent - c.column))

/-- Reads empty lines; `widest` is the greatest column seen in them. An unknown
indentation is the widest, but more than that of the parent. -/
def scanLead (parent : Int) (start : Mark) : Nat → Nat → Lead → Scanner Lead
  | 0, _, lead, c => .ok (lead, c)
  | fuel + 1, widest, lead, c =>
    let c := skipIndentation lead.indent c
    let widest := max widest c.column
    if (lead.indent = 0 || c.column < lead.indent) && c.isAt '\t' then
      c.fail .tabForSpace .blockScalar start
    else
      match c.lineBreak? with
      | some (x, c) =>
        scanLead parent start fuel widest { lead with breaks := lead.breaks ++ [x], stop := c.mark } c
      | none =>
        let indent := if lead.indent = 0 then max (max widest (parent + 1).toNat) 1 else lead.indent
        .ok ({ lead with indent := indent }, c)

structure BlockText where
  text : List Char := []
  /-- The break after the last line of text. -/
  lineEnd : List Char := []
  /-- Whether the last line of text began with a blank. -/
  startsBlank : Bool := false
  lead : Lead

/-- What the breaks between two lines of text stand for. A folded break is a
space if no other follows it and no line beside it begins with a blank. -/
def BlockText.join (b : BlockText) (style : BlockStyle) (nextBlank : Bool) : List Char :=
  let fold := style = .folded && b.lineEnd = ['\n'] && !b.startsBlank && !nextBlank
  let ending := if fold then (if b.lead.breaks.isEmpty then [' '] else []) else b.lineEnd
  ending ++ b.lead.breaks

def scanLines (parent : Int) (style : BlockStyle) (start : Mark) : Nat → BlockText → Scanner BlockText
  | 0, b, c => .ok (b, c)
  | fuel + 1, b, c =>
    if c.column ≠ b.lead.indent || c.atEnd then .ok (b, c)
    else do
      let startsBlank := c.head?.any isBlank
      let joint := b.join style startsBlank
      let (line, c) := c.span (!isBreak ·)
      let (lineEnd, c) := match c.lineBreak? with
        | some (x, c) => ([x], c)
        | none => ([], c)
      let (lead, c) ←
        scanLead parent start (c.rest.length + 1) 0 ⟨b.lead.indent, [], c.mark⟩ c
      scanLines parent style start fuel { text := b.text ++ joint ++ line, lineEnd, startsBlank, lead } c

/-- A block scalar, from its `|` or `>` on, under a parent's indentation. -/
def scanBlock (parent : Int) (style : BlockStyle) : Cursor → Except Fault (Token × Cursor) := fun start => do
  let ((chomping, increment), c) ← scanHeader start.mark (start.advance 1)
  let c := c.skip isBlank
  let c := if c.isAt '#' then c.skipLine else c
  if !(c.atEnd || c.head?.any isBreak) then c.fail .noCommentOrBreak .blockScalar start.mark
  else
    let c := (c.lineBreak?.map Prod.snd).getD c
    let indent := increment.elim 0 fun n => (max parent 0).toNat + n
    let (lead, c) ← scanLead parent start.mark (c.rest.length + 1) 0 ⟨indent, [], c.mark⟩ c
    let (b, c) ← scanLines parent style start.mark (c.rest.length + 1) { lead } c
    let ending := match chomping with
      | .strip => []
      | .clip => b.lineEnd
      | .keep => b.lineEnd ++ b.lead.breaks
    .ok (⟨.scalar (String.ofList (b.text ++ ending)) .block, start.mark, b.lead.stop⟩, c)

end ExampleTests.Yaml

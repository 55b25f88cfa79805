import ExampleTests.Text.Utf8

/-! A place in a YAML source, and the rest of the source from there. Places
count characters; a carriage return with a line feed is one line break. -/

namespace ExampleTests.Yaml

/-- Lines and columns are counted from zero. -/
structure Mark where
  index : Nat := 0
  line : Nat := 0
  column : Nat := 0
deriving DecidableEq

namespace Mark

def isOrigin (m : Mark) : Bool := m.line = 0 && m.column = 0

def sameLineColumn (m n : Mark) : Bool := m.line = n.line && m.column = n.column

def text (m : Mark) : String :=
  "line " ++ (m.line + 1).repr ++ " column " ++ (m.column + 1).repr

/-- The place so many characters further on the same line. -/
def move (m : Mark) (n : Nat) : Mark := { m with index := m.index + n, column := m.column + n }

/-- The start of the next line, after a break of so many characters. -/
def nextLine (m : Mark) (n : Nat) : Mark := ⟨m.index + n, m.line + 1, 0⟩

end Mark

def isBreak (c : Char) : Bool :=
  c = '\n' || c = '\r' || c = '\x85' || c = '\u2028' || c = '\u2029'

def isBlank (c : Char) : Bool := c = ' ' || c = '\t'

def isSpace (c : Char) : Bool := isBlank c || isBreak c

/-- Characters of anchors, tag handles and directive names. -/
def isWord (c : Char) : Bool := c.isAlphanum || c = '_' || c = '-'

/-- Characters that a source may hold: no controls but the tab and breaks. -/
def isAllowed (c : Char) : Bool :=
  c = '\t' || c = '\n' || c = '\r' || c = '\x85' ||
    (0x20 ≤ c.toNat && c.toNat ≤ 0x7E) ||
    (0xA0 ≤ c.toNat && c.toNat ≤ 0xFFFD) || 0x10000 ≤ c.toNat

/-- The byte offset of the first character that a source may not hold. -/
def disallowedAt? : Nat → List Char → Option Nat
  | _, [] => none
  | offset, c :: rest => if isAllowed c then disallowedAt? (offset + c.utf8Size) rest else some offset

structure Cursor where
  rest : List Char
  mark : Mark

namespace Cursor

def ofSource (source : String) : Cursor := ⟨source.toList, {}⟩

def column (c : Cursor) : Nat := c.mark.column

def head? (c : Cursor) : Option Char := c.rest.head?

def peek? (c : Cursor) (n : Nat) : Option Char := c.rest[n]?

def isAt (c : Cursor) (x : Char) : Bool := c.head? = some x

def atEnd (c : Cursor) : Bool := c.rest.isEmpty

/-- Whether a space, a break or the end is `n` places further on. -/
def spaceOrEnd (c : Cursor) (n : Nat) : Bool := (c.peek? n).all isSpace

/-- Moves over characters that are no breaks. -/
def advance (c : Cursor) (n : Nat) : Cursor := ⟨c.rest.drop n, c.mark.move n⟩

/-- The characters up to the first that fails the test, none of them a break. -/
def span (c : Cursor) (p : Char → Bool) : List Char × Cursor :=
  let taken := c.rest.takeWhile p
  (taken, ⟨c.rest.dropWhile p, c.mark.move taken.length⟩)

def skip (c : Cursor) (p : Char → Bool) : Cursor := (c.span p).2

def skipLine (c : Cursor) : Cursor := c.skip (!isBreak ·)

/-- A line break, as it counts in the text of a scalar, and what follows. -/
def lineBreak? (c : Cursor) : Option (Char × Cursor) :=
  match c.rest with
  | '\r' :: '\n' :: rest => some ('\n', ⟨rest, c.mark.nextLine 2⟩)
  | x :: rest =>
    if isBreak x then
      some (if x = '\u2028' || x = '\u2029' then x else '\n', ⟨rest, c.mark.nextLine 1⟩)
    else none
  | [] => none

/-- Three dashes or three dots alone at the start of a line. -/
def atDocumentIndicator (c : Cursor) (x : Char) : Bool :=
  c.column = 0 && c.isAt x && c.peek? 1 = some x && c.peek? 2 = some x && c.spaceOrEnd 3

def atDocumentBoundary (c : Cursor) : Bool :=
  c.atDocumentIndicator '-' || c.atDocumentIndicator '.'

end Cursor

end ExampleTests.Yaml

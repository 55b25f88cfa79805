import ExampleTests.Yaml.Token

/-! Anchors, aliases, tags and directives. A tag is kept as bytes, since its
escapes may stand for any. -/

namespace ExampleTests.Yaml

open Cursor

def asciiBytes (cs : List Char) : Bytes := cs.map fun c => UInt8.ofNat c.toNat

def afterName : List Char := ['?', ':', ',', ']', '}', '%', '@', '\x60']

/-- The name after `&` or `*`. -/
def scanName (context : Context) : Scanner String := fun start =>
  let (name, c) := (start.advance 1).span isWord
  if name.isEmpty || !(c.spaceOrEnd 0 || c.head?.any (afterName.contains ·)) then
    c.fail .noAlphanumeric context start.mark
  else .ok (String.ofList name, c)

/-- Whether a tag belongs to a directive. -/
inductive TagPlace where
  | directive
  | node
deriving DecidableEq

def TagPlace.handleContext : TagPlace → Context
  | directive => .tagDirectiveHandle
  | node => .tag

def TagPlace.uriContext : TagPlace → Context
  | directive => .tagDirectiveUri
  | node => .tagUri

/-- A handle: `!`, `!!` or `!name!`. In front of a node it may turn out to be
the start of a tag, without its second mark. -/
def scanTagHandle (place : TagPlace) (start : Mark) : Scanner (List Char) := fun c =>
  if !c.isAt '!' then c.fail .noExclamation place.handleContext start
  else
    let (name, c) := (c.advance 1).span isWord
    if c.isAt '!' then .ok ('!' :: name ++ ['!'], c.advance 1)
    else if place = .directive && !name.isEmpty then
      c.fail .noExclamation .tagDirectiveHandleEnd start
    else .ok ('!' :: name, c)

def hexDigit? (c : Char) : Option Nat :=
  if c.isDigit then some (c.toNat - '0'.toNat)
  else if 'a' ≤ c ∧ c ≤ 'f' then some (c.toNat - 'a'.toNat + 10)
  else if 'A' ≤ c ∧ c ≤ 'F' then some (c.toNat - 'A'.toNat + 10)
  else none

/-- How many octets a character has that begins with this one. -/
def octetWidth? (octet : Nat) : Option Nat :=
  if octet < 0x80 then some 1
  else if octet / 0x20 = 0x6 then some 2
  else if octet / 0x10 = 0xE then some 3
  else if octet / 0x08 = 0x1E then some 4
  else none

/-- One escaped octet, `%` and two digits. -/
def scanOctet (place : TagPlace) (start : Mark) : Scanner Nat := fun c =>
  match c.head?, (c.peek? 1).bind hexDigit?, (c.peek? 2).bind hexDigit? with
  | some '%', some high, some low => .ok (16 * high + low, c.advance 3)
  | _, _, _ => c.fail .noOctet place.uriContext start

def scanOctets (place : TagPlace) (start : Mark) : Nat → Scanner Bytes
  | 0, c => .ok ([], c)
  | owed + 1, c => do
    let (octet, next) ← scanOctet place start c
    if octet / 0x40 ≠ 0x2 then c.fail .wrongTrailingOctet place.uriContext start
    else
      let (octets, c) ← scanOctets place start owed next
      .ok (UInt8.ofNat octet :: octets, c)

def scanEscapedCharacter (place : TagPlace) (start : Mark) : Scanner Bytes := fun c => do
  let (octet, next) ← scanOctet place start c
  match octetWidth? octet with
  | none => c.fail .wrongLeadingOctet place.uriContext start
  | some width =>
    let (octets, c) ← scanOctets place start (width - 1) next
    .ok (UInt8.ofNat octet :: octets, c)

def uriMarks : List Char :=
  [';', '/', '?', ':', '@', '&', '=', '+', '$', '.', '%', '!', '~', '*', '\x27', '(', ')']

def flowMarks : List Char := [',', '[', ']']

/-- Characters of a tag; commas and brackets only where no flow collection can
end it. -/
def isUri (whole : Bool) (c : Char) : Bool :=
  isWord c || uriMarks.contains c || (whole && flowMarks.contains c)

/-- The bytes of a tag, in at most `fuel` characters. -/
def scanUriBytes (whole : Bool) (place : TagPlace) (start : Mark) : Nat → Scanner Bytes
  | 0, c => .ok ([], c)
  | fuel + 1, c =>
    match c.head? with
    | none => .ok ([], c)
    | some x =>
      if !isUri whole x then .ok ([], c)
      else do
        let (bytes, c) ←
          if x = '%' then scanEscapedCharacter place start c else .ok (asciiBytes [x], c.advance 1)
        let (more, c) ← scanUriBytes whole place start fuel c
        .ok (bytes ++ more, c)

/-- A tag that continues what has been read of it as a handle. -/
def scanUri (whole : Bool) (place : TagPlace) (start : Mark) (head : List Char) : Scanner Bytes := fun c => do
  let (bytes, next) ← scanUriBytes whole place start c.rest.length c
  if head.isEmpty && bytes.isEmpty then next.fail .noTagUri place.uriContext start
  else .ok (asciiBytes (head.drop 1) ++ bytes, next)

/-- A handle and a suffix; the tag `!` has no handle. -/
def scanTagParts (start : Mark) : Scanner (List Char × Bytes) := fun c => do
  if c.peek? 1 = some '<' then
    let (suffix, c) ← scanUri true .node start [] (c.advance 2)
    if c.isAt '>' then .ok (([], suffix), c.advance 1) else c.fail .noClosingAngle .tag start
  else
    let (handle, c) ← scanTagHandle .node start c
    if 2 ≤ handle.length && handle.getLast? = some '!' then
      let (suffix, c) ← scanUri false .node start [] c
      .ok ((handle, suffix), c)
    else
      let (suffix, c) ← scanUri false .node start handle c
      .ok (if suffix.isEmpty then ([], asciiBytes ['!']) else (['!'], suffix), c)

/-- A tag, which a space must follow, or a comma in a flow collection. -/
def scanTag (inFlow : Bool) : Scanner Lexeme := fun start => do
  let ((handle, suffix), c) ← scanTagParts start.mark start
  if c.spaceOrEnd 0 || (inFlow && c.isAt ',') then .ok (.tag (String.ofList handle) suffix, c)
  else c.fail .noSpaceOrBreak .tag start.mark

def longestVersion : Nat := 9

/-- A version number of at most nine digits. -/
def scanVersionNumber (start : Mark) : Scanner Nat := fun c =>
  let (digits, next) := c.span Char.isDigit
  if longestVersion < digits.length then
    (c.advance longestVersion).fail .longVersion .versionDirective start
  else if digits.isEmpty then c.fail .noVersion .versionDirective start
  else .ok (Nat.ofDigitChars 10 digits 0, next)

def scanVersion (start : Mark) : Scanner Lexeme := fun c => do
  let (major, c) ← scanVersionNumber start (c.skip isBlank)
  if !c.isAt '.' then c.fail .noDigitOrDot .versionDirective start
  else
    let (minor, c) ← scanVersionNumber start (c.advance 1)
    .ok (.version major minor, c)

def scanTagDirective (start : Mark) : Scanner Lexeme := fun c => do
  let (handle, c) ← scanTagHandle .directive start (c.skip isBlank)
  if !c.head?.any isBlank then c.fail .noSpace .tagDirective start
  else
    let (uri, c) ← scanUri true .directive start [] (c.skip isBlank)
    if !c.spaceOrEnd 0 then c.fail .noSpaceOrBreak .tagDirective start
    else .ok (.tagHandle (String.ofList handle) uri, c)

/-- A directive with the rest of its line. The token ends before that. -/
def scanDirective : Cursor → Except Fault (Token × Cursor) := fun start => do
  let (name, c) := (start.advance 1).span isWord
  if name.isEmpty then c.fail .noDirectiveName .directive start.mark
  else if !c.spaceOrEnd 0 then c.fail .notAlphabetic .directive start.mark
  else
    let (lexeme, c) ←
      if name = "YAML".toList then scanVersion start.mark c
      else if name = "TAG".toList then scanTagDirective start.mark c
      else c.fail .unknownDirective .directive start.mark
    let stop := c.mark
    let c := c.skip isBlank
    let c := if c.isAt '#' then c.skipLine else c
    if !(c.atEnd || c.head?.any isBreak) then c.fail .noCommentOrBreak .directive start.mark
    else .ok (⟨lexeme, start.mark, stop⟩, (c.lineBreak?.map Prod.snd).getD c)

end ExampleTests.Yaml

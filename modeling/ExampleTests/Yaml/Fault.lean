import ExampleTests.Yaml.Source

/-! What makes a source no YAML. A fault names a problem and its place, and
most name also what was being read, with the place where that began. -/

namespace ExampleTests.Yaml

inductive Problem where
  | noToken
  | entryNotAllowed
  | keyNotAllowed
  | valueNotAllowed
  | noColon
  | unknownDirective
  | noCommentOrBreak
  | noDirectiveName
  | notAlphabetic
  | noDigitOrDot
  | longVersion
  | noVersion
  | noSpace
  | noSpaceOrBreak
  | noAlphanumeric
  | noClosingAngle
  | noExclamation
  | noTagUri
  | noOctet
  | wrongLeadingOctet
  | wrongTrailingOctet
  | zeroIndentation
  | tabForSpace
  | tabInIndentation
  | documentIndicator
  | endOfStream
  | unknownEscape
  | noHexadecimal
  | invalidCodePoint
  | unexpectedColon
  | noDocumentStart
  | duplicateVersion
  | incompatible
  | duplicateTagHandle
  | undefinedTagHandle
  | noNode
  | noDash
  | noKey
  | noCommaOrBracket
  | noCommaOrBrace

inductive Context where
  | nextToken
  | simpleKey
  | directive
  | versionDirective
  | tagDirective
  | tagDirectiveHandle
  | tagDirectiveHandleEnd
  | tagDirectiveUri
  | anchor
  | aliasName
  | tag
  | tagUri
  | blockScalar
  | quotedScalar
  | escape
  | plainScalar
  | node
  | blockNode
  | flowNode
  | blockCollection
  | blockMapping
  | flowSequence
  | flowMapping

namespace Problem

def message : Problem → String
  | noToken => "found character that cannot start any token"
  | entryNotAllowed => "block sequence entries are not allowed in this context"
  | keyNotAllowed => "mapping keys are not allowed in this context"
  | valueNotAllowed => "mapping values are not allowed in this context"
  | noColon => "could not find expected ':'"
  | unknownDirective => "found unknown directive name"
  | noCommentOrBreak => "did not find expected comment or line break"
  | noDirectiveName => "could not find expected directive name"
  | notAlphabetic => "found unexpected non-alphabetical character"
  | noDigitOrDot => "did not find expected digit or '.' character"
  | longVersion => "found extremely long version number"
  | noVersion => "did not find expected version number"
  | noSpace => "did not find expected whitespace"
  | noSpaceOrBreak => "did not find expected whitespace or line break"
  | noAlphanumeric => "did not find expected alphabetic or numeric character"
  | noClosingAngle => "did not find the expected '>'"
  | noExclamation => "did not find expected '!'"
  | noTagUri => "did not find expected tag URI"
  | noOctet => "did not find URI escaped octet"
  | wrongLeadingOctet => "found an incorrect leading UTF-8 octet"
  | wrongTrailingOctet => "found an incorrect trailing UTF-8 octet"
  | zeroIndentation => "found an indentation indicator equal to 0"
  | tabForSpace => "found a tab character where an indentation space is expected"
  | tabInIndentation => "found a tab character that violates indentation"
  | documentIndicator => "found unexpected document indicator"
  | endOfStream => "found unexpected end of stream"
  | unknownEscape => "found unknown escape character"
  | noHexadecimal => "did not find expected hexadecimal number"
  | invalidCodePoint => "found invalid Unicode character escape code"
  | unexpectedColon => "found unexpected ':'"
  | noDocumentStart => "did not find expected <document start>"
  | duplicateVersion => "found duplicate %YAML directive"
  | incompatible => "found incompatible YAML document"
  | duplicateTagHandle => "found duplicate %TAG directive"
  | undefinedTagHandle => "found undefined tag handle"
  | noNode => "did not find expected node content"
  | noDash => "did not find expected '-' indicator"
  | noKey => "did not find expected key"
  | noCommaOrBracket => "did not find expected ',' or ']'"
  | noCommaOrBrace => "did not find expected ',' or '\x7d'"

end Problem

namespace Context

def message : Context → String
  | nextToken => "while scanning for the next token"
  | simpleKey => "while scanning a simple key"
  | directive => "while scanning a directive"
  | versionDirective => "while scanning a %YAML directive"
  | tagDirective => "while scanning a %TAG directive"
  | tagDirectiveHandle => "while scanning a tag directive"
  | tagDirectiveHandleEnd => "while parsing a tag directive"
  | tagDirectiveUri => "while parsing a %TAG directive"
  | anchor => "while scanning an anchor"
  | aliasName => "while scanning an alias"
  | tag => "while scanning a tag"
  | tagUri => "while parsing a tag"
  | blockScalar => "while scanning a block scalar"
  | quotedScalar => "while scanning a quoted scalar"
  | escape => "while parsing a quoted scalar"
  | plainScalar => "while scanning a plain scalar"
  | node => "while parsing a node"
  | blockNode => "while parsing a block node"
  | flowNode => "while parsing a flow node"
  | blockCollection => "while parsing a block collection"
  | blockMapping => "while parsing a block mapping"
  | flowSequence => "while parsing a flow sequence"
  | flowMapping => "while parsing a flow mapping"

end Context

inductive Fault where
  /-- A character that no source may hold, at a byte offset. -/
  | disallowed (offset : Nat)
  | malformed (problem : Problem) (mark : Mark) (context : Option (Context × Mark))

namespace Fault

/-- A mark at the origin is not shown, nor a second mark equal to the first. -/
def message : Fault → String
  | disallowed offset =>
    "control characters are not allowed" ++ (if offset = 0 then "" else " at position " ++ offset.repr)
  | malformed problem mark context =>
    let place := if mark.isOrigin then "" else " at " ++ mark.text
    let during := match context with
      | none => ""
      | some (c, start) =>
        ", " ++ c.message ++
          if start.isOrigin || start.sameLineColumn mark then "" else " at " ++ start.text
    problem.message ++ place ++ during

end Fault

/-- Fails at the cursor, in what began at `start`. -/
def Cursor.fail {α : Type} (c : Cursor) (problem : Problem) (context : Context) (start : Mark) :
    Except Fault α :=
  .error (.malformed problem c.mark (some (context, start)))

end ExampleTests.Yaml

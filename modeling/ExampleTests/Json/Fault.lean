import ExampleTests.Json.Write
import ExampleTests.Mismatch

/-! What can be wrong with a JSON source, and where. A place is kept as the
number of bytes that follow it; lines and columns are counted from the source
only when they are asked for. -/

namespace ExampleTests.Json

inductive Reason where
  | endInValue
  | endInList
  | endInObject
  | endInText
  | expectedValue
  | expectedWord
  | expectedCommaOrBracket
  | expectedCommaOrBrace
  | expectedColon
  | keyNotText
  | trailingComma
  | trailingCharacters
  | invalidNumber
  | numberOutOfRange
  | controlCharacter
  | invalidEscape
  | loneSurrogate
  | halfSurrogatePair
  | duplicateField (name : String)
  | mismatch (m : Mismatch)

inductive Category where
  | unfinished
  | malformed
  | wrongData
deriving DecidableEq

namespace Reason

/-- A float that is not wanted is named as it would be written. -/
def wording : Wording := ⟨"null", fun x => String.ofList (writeFloat x)⟩

def category : Reason → Category
  | endInValue | endInList | endInObject | endInText => .unfinished
  | duplicateField _ | mismatch _ => .wrongData
  | _ => .malformed

def message : Reason → String
  | endInValue => "EOF while parsing a value"
  | endInList => "EOF while parsing a list"
  | endInObject => "EOF while parsing an object"
  | endInText => "EOF while parsing a string"
  | expectedValue => "expected value"
  | expectedWord => "expected ident"
  | expectedCommaOrBracket => "expected `,` or `]`"
  | expectedCommaOrBrace => "expected `,` or `\x7d`"
  | expectedColon => "expected `:`"
  | keyNotText => "key must be a string"
  | trailingComma => "trailing comma"
  | trailingCharacters => "trailing characters"
  | invalidNumber => "invalid number"
  | numberOutOfRange => "number out of range"
  | controlCharacter => "control character (\\u0000-\\u001F) found while parsing a string"
  | invalidEscape => "invalid escape"
  | loneSurrogate => "lone leading surrogate in hex escape"
  | halfSurrogatePair => "unexpected end of hex escape"
  | duplicateField name => "duplicate field `" ++ name ++ "`"
  | mismatch m => m.message wording

end Reason

def byteCount (text : List Char) : Nat := text.foldr (·.utf8Size + ·) 0

/-- A fault at the place that `left` bytes of the source follow. -/
structure Fault where
  reason : Reason
  left : Nat

namespace Fault

def before (reason : Reason) (rest : List Char) : Fault := ⟨reason, byteCount rest⟩

/-- A fault at the first byte of the rest, or at the end of the source. -/
def atNext (reason : Reason) (rest : List Char) : Fault := ⟨reason, byteCount rest - 1⟩

/-- The line, from one, and the bytes of it in front of a byte offset. -/
def lineColumn : Nat → Nat → Nat → List Char → Nat × Nat
  | line, column, _, [] => (line, column)
  | line, column, offset, c :: rest =>
    if offset < c.utf8Size then (line, column + offset)
    else if c = '\n' then lineColumn (line + 1) 0 (offset - 1) rest
    else lineColumn line (column + c.utf8Size) (offset - c.utf8Size) rest

end Fault

structure Error where
  reason : Reason
  line : Nat
  column : Nat

namespace Error

def ofFault (source : List Char) (fault : Fault) : Error :=
  let (line, column) := Fault.lineColumn 1 0 (byteCount source - fault.left) source
  ⟨fault.reason, line, column⟩

def message (e : Error) : String :=
  e.reason.message ++ " at line " ++ e.line.repr ++ " column " ++ e.column.repr

end Error

end ExampleTests.Json

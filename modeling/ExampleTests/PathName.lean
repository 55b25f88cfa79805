import ExampleTests.Text.Utf8

/-! Names of files: pieces between slashes, which need not be text. What a name
says about a file is in its last piece. -/

namespace ExampleTests

structure PathName where
  bytes : Bytes
deriving DecidableEq

namespace PathName

def slash : UInt8 := 0x2F

def dot : UInt8 := 0x2E

def ofString (s : String) : PathName := ⟨Text.encode s⟩

def text (p : PathName) : String := Text.decodeLossy p.bytes

def isAbsolute (p : PathName) : Bool := p.bytes.head? == some slash

/-- What stands between the slashes, empty pieces included. -/
def pieces (p : PathName) : List Bytes := p.bytes.splitOn slash

def staysInPlace (piece : Bytes) : Bool := piece.isEmpty || piece == [dot]

def goesUp (piece : Bytes) : Bool := piece == [dot, dot]

/-- The last piece that leads anywhere, unless it leads up. -/
def fileName? (p : PathName) : Option Bytes :=
  (p.pieces.filter (!staysInPlace ·)).getLast?.filter (!goesUp ·)

/-- What follows the last dot, if something comes before it. -/
def extensionOf? (fileName : Bytes) : Option Bytes :=
  match fileName.reverse.span (· != dot) with
  | (_, []) | (_, [_]) => none
  | (afterDot, _) => some afterDot.reverse

def extension? (p : PathName) : Option Bytes := p.fileName?.bind extensionOf?

end PathName

end ExampleTests

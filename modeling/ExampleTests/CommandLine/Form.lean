import ExampleTests.Text.Utf8

/-! What an argument looks like: a flag in its long or short form, a value, or
the double hyphen after which all arguments are values. -/

namespace ExampleTests.CommandLine

/-- The form of an argument before any double hyphen. A single hyphen is a value. -/
inductive Form where
  | doubleHyphen
  | long (name : String) (value : Option Bytes)
  | short (letters : Bytes)
  | value

def hyphen : UInt8 := 0x2D

def equals : UInt8 := 0x3D

def Form.of (argument : Bytes) : Form :=
  match argument with
  | [] | [_] => .value
  | a :: b :: rest =>
    if a ≠ hyphen then .value
    else if b ≠ hyphen then .short (b :: rest)
    else if rest.isEmpty then .doubleHyphen
    else
      match rest.span (· != equals) with
      | (name, []) => .long (Text.decodeLossy name) none
      | (name, _ :: given) => .long (Text.decodeLossy name) (some given)

/-- The first letter of a cluster as it is shown: all of it where no text begins. -/
def firstLetter (letters : Bytes) : String :=
  let first := [1, 2, 3, 4].findSome? fun n => (Text.decode? (letters.take n)).bind (·.toList.head?)
  first.elim (Text.decodeLossy letters) (·.toString)

end ExampleTests.CommandLine

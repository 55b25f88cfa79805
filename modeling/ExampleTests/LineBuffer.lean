/-! A buffer of lines with a current indentation. Lines are joined without a
line break after the last one. -/

namespace ExampleTests

structure LineBuffer where
  lines : List String := []
  level : Nat := 0

namespace LineBuffer

def indentation : String := "  "

def empty : LineBuffer := {}

def indent (b : LineBuffer) : LineBuffer := { b with level := b.level + 1 }

/-- The level stays at zero when there is nothing to take back. -/
def dedent (b : LineBuffer) : LineBuffer := { b with level := b.level - 1 }

def line (b : LineBuffer) (text : String) : LineBuffer :=
  { b with lines := b.lines ++ [String.join (List.replicate b.level indentation) ++ text] }

def finish (b : LineBuffer) : String := String.intercalate "\n" b.lines

end LineBuffer

end ExampleTests

import ExampleTests.Yaml.Fault

/-! The tokens of a YAML source: indicators, names and scalars, and the starts
and ends of blocks that only the indentation shows. -/

namespace ExampleTests.Yaml

inductive Style where
  | plain
  | quoted
  | block
deriving DecidableEq

inductive Lexeme where
  | streamStart
  | streamEnd
  | version (major minor : Nat)
  | tagHandle (handle : String) (uri : Bytes)
  | documentStart
  | documentEnd
  | blockSequenceStart
  | blockMappingStart
  | blockEnd
  | flowSequenceStart
  | flowSequenceEnd
  | flowMappingStart
  | flowMappingEnd
  | blockEntry
  | flowEntry
  | key
  | value
  | alias (name : String)
  | anchor (name : String)
  | tag (handle : String) (suffix : Bytes)
  | scalar (text : String) (style : Style)
deriving DecidableEq

structure Token where
  lexeme : Lexeme
  start : Mark
  stop : Mark

/-- A scanner reads one token's text from where the cursor stands. -/
abbrev Scanner (α : Type) := Cursor → Except Fault (α × Cursor)

end ExampleTests.Yaml

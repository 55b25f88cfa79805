import ExampleTests.Text.Quoted
import ExampleTests.Word

/-! What a reader finds in a source, what is wanted there, and how the two are
named when they do not agree. -/

namespace ExampleTests

/-- A node of a source by its outermost shape. -/
inductive Found where
  | boolean (b : Bool)
  | integer (w : Word)
  | float (x : Float)
  | text (s : String)
  | unit
  | absent
  | sequence
  | mapping
  | tagged

/-- A scalar is a literal if it is neither the unit nor absent. -/
def Value.ofFound? : Found → Option Value
  | .boolean b => some (ofBool b)
  | .integer w => some (ofWord w)
  | .float x => some (.float x)
  | .text s => some (.raw s)
  | .unit | .absent | .sequence | .mapping | .tagged => none

inductive Wanted where
  | spec
  | exampleOfSpec
  | fieldName
  | text
  | sequence
  | value
  | boolean
  | integer
  | float
  | null
deriving DecidableEq

/-- How a format names what its own notation decides. -/
structure Wording where
  unit : String
  float : Float → String

namespace Found

def text64 (n : Int) : String := "integer `" ++ n.repr ++ "`"

def text128 (n : Int) (width : String) : String := "integer `" ++ n.repr ++ "` as " ++ width

def describe (wording : Wording) : Found → String
  | boolean b => "boolean `" ++ (if b then "true" else "false") ++ "`"
  | integer (.int64 n) => text64 n.toInt
  | integer (.uint64 n) => text64 n.toNat
  | integer (.int128 n) => text128 n.toInt "i128"
  | integer (.uint128 n) => text128 n.toNat "u128"
  | float x => "floating point `" ++ wording.float x ++ "`"
  | text s => "string " ++ Text.quote s
  | unit => wording.unit
  | absent => "Option value"
  | sequence => "sequence"
  | mapping => "map"
  | tagged => "enum"

end Found

namespace Wanted

def describe : Wanted → String
  | spec => "struct FunctionSpec"
  | exampleOfSpec => "struct Example"
  | fieldName => "field identifier"
  | text => "a string"
  | sequence => "a sequence"
  | value => "a number, boolean or bare-word literal"
  | boolean => "a boolean"
  | integer => "an integer"
  | float => "a float"
  | null => "null"

end Wanted

structure Mismatch where
  found : Found
  wanted : Wanted

namespace Mismatch

def message (wording : Wording) (m : Mismatch) : String :=
  "invalid type: " ++ m.found.describe wording ++ ", expected " ++ m.wanted.describe

/-- The wording for a mismatch that no format decides. -/
def plainWording : Wording := ⟨"unit value", Value.floatText⟩

end Mismatch

/-- The literal for a scalar that a reader found. -/
def Value.ofFound (found : Found) : Except Mismatch Value :=
  match ofFound? found with
  | some v => .ok v
  | none => .error ⟨found, .value⟩

end ExampleTests

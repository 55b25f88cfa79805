import ExampleTests.Decimal.Style

/-! A value is a literal that stands in an example: an integer, a float, or a
word that is copied as it is. Its text never depends on where it is used. -/

namespace ExampleTests

inductive Value where
  | integer (n : Int64)
  | float (x : Float)
  | raw (text : String)

namespace Value

/-- Equality of literals compares floats as numbers, so the two zeros are
equal and a NaN is not equal to itself. -/
protected def beq : Value → Value → Bool
  | integer m, integer n => m == n
  | float x, float y => x == y
  | raw s, raw t => s == t
  | _, _ => false

instance : BEq Value := ⟨Value.beq⟩

/-- An integer literal, or the bare digits of one that has no 64-bit form. -/
def ofInt (n : Int) : Value :=
  if Int64.minValue.toInt ≤ n ∧ n ≤ Int64.maxValue.toInt then .integer (Int64.ofInt n)
  else .raw n.repr

def ofBool (b : Bool) : Value :=
  .raw (if b then "true" else "false")

/-- A float as it is displayed: the fewest digits, of which a tie takes the greater, never an
exponent, and a point only in front of digits. -/
def displayText (x : Float) : String :=
  match Binary64.ofFloat x with
  | .nan => "NaN"
  | .infinite negative => if negative then "-inf" else "inf"
  | .finite negative m q =>
    let text := if m = 0 then ['0'] else (Decimal.shortest .up m q).plain
    String.ofList (if negative then '-' :: text else text)

/-- A finite float is written with a fraction, be it zero. -/
def floatText (x : Float) : String :=
  let text := displayText x
  if x.isFinite && !text.toList.contains '.' then text ++ ".0" else text

def render : Value → String
  | integer n => n.toInt.repr
  | float x => floatText x
  | raw text => text

end Value

end ExampleTests

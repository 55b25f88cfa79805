import ExampleTests.Decimal.Binary64

/-! The fewest decimal digits that read back as a given binary number. For
one digit, two digits and so on the two neighbours of the number on that
decimal grid are compared with the reals that round to it; the first grid
with a neighbour among them wins, and of two the nearer. -/

namespace ExampleTests.Decimal

/-- Which of two equally near candidates is taken. -/
inductive Tie where
  | toEven
  | up

/-- The positive number `0.d₁d₂… * 10 ^ point`. -/
structure Digits where
  digits : List Char
  point : Int

/-- The reals that round to `value / unit`: those between `low / unit` and
`high / unit`, with the two ends if `closed`. -/
structure Neighbourhood where
  low : Nat
  value : Nat
  high : Nat
  unit : Nat
  closed : Bool

namespace Neighbourhood

/-- The gap below a power of two is half the gap above it. -/
def ofBinary (significand : Nat) (exponent : Int) : Neighbourhood :=
  let scale := 1 <<< (exponent - 2).toNat
  let narrow := significand = Binary64.leastNormal ∧ Binary64.minExponent < exponent
  { low := (4 * significand - if narrow then 1 else 2) * scale
    value := 4 * significand * scale
    high := (4 * significand + 2) * scale
    unit := 1 <<< (2 - exponent).toNat
    closed := significand % 2 = 0 }

/-- The `k` with `10 ^ (k - 1) ≤ value / unit < 10 ^ k`. -/
def magnitude (r : Neighbourhood) : Int :=
  if r.unit ≤ r.value then (Nat.toDigits 10 (r.value / r.unit)).length
  else 1 - ((Nat.toDigits 10 (r.unit / r.value)).length : Int)

/-- The `c` for which `c * 10 ^ place` is the neighbour of the value on that
grid that rounds to it, the nearer one if both do. -/
def onGrid (r : Neighbourhood) (tie : Tie) (place : Int) : Option Nat :=
  let up := Nat.pow 10 (-place).toNat
  let step := r.unit * Nat.pow 10 place.toNat
  let value := r.value * up
  let below := value / step
  let reaches (a b : Nat) : Bool := if r.closed then a ≤ b else a < b
  match reaches (r.low * up) (below * step), reaches ((below + 1) * step) (r.high * up) with
  | false, false => none
  | true, false => some below
  | false, true => some (below + 1)
  | true, true =>
    let twice := 2 * (value - below * step)
    if twice < step then some below
    else if step < twice then some (below + 1)
    else match tie with
      | .up => some (below + 1)
      | .toEven => some (if below % 2 = 0 then below else below + 1)

/-- Searches the grids of `10 ^ place`, `10 ^ (place - 1)` and so on, at most
`grids` of them. -/
def firstGrid (r : Neighbourhood) (tie : Tie) : Nat → Int → Option (Nat × Int)
  | 0, _ => none
  | grids + 1, place =>
    match r.onGrid tie place with
    | some c => some (c, place)
    | none => firstGrid r tie grids (place - 1)

end Neighbourhood

/-- Seventeen digits tell any two floats apart. -/
def maxDigits : Nat := 17

/-- The digits of `c * 10 ^ place`, without zeros at the end. -/
def Digits.ofNat (c : Nat) (place : Int) : Digits :=
  let ds := Nat.toDigits 10 c
  { digits := (ds.reverse.dropWhile (· == '0')).reverse
    point := ds.length + place }

/-- The shortest digits of `significand * 2 ^ exponent`, which is positive. -/
def shortest (tie : Tie) (significand : Nat) (exponent : Int) : Digits :=
  let r := Neighbourhood.ofBinary significand exponent
  let first := r.magnitude - 1
  match r.firstGrid tie maxDigits first with
  | some (c, place) => Digits.ofNat c place
  | none => Digits.ofNat (r.value / r.unit) 0

end ExampleTests.Decimal

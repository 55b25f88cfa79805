import ExampleTests.Value

/-! Integers as they are read from a source, in the word that holds them, and
the literal that each becomes. Words of one integer give one literal. -/

namespace ExampleTests

inductive Word where
  | int64 (n : Int64)
  | uint64 (n : UInt64)
  | int128 (n : BitVec 128)
  | uint128 (n : BitVec 128)

namespace Word

def toInt : Word → Int
  | int64 n => n.toInt
  | uint64 n => n.toNat
  | int128 n => n.toInt
  | uint128 n => n.toNat

/-- The narrowest word for an integer, unsigned if it has no sign. -/
def ofInt? (n : Int) : Option Word :=
  let size := n.natAbs
  if 0 ≤ n then
    if size < 1 <<< 64 then some (uint64 (UInt64.ofNat size))
    else if size < 1 <<< 128 then some (uint128 (BitVec.ofInt 128 n))
    else none
  else if size ≤ 1 <<< 63 then some (int64 (Int64.ofInt n))
  else if size ≤ 1 <<< 127 then some (int128 (BitVec.ofInt 128 n))
  else none

end Word

/-- A word of 64 signed bits is an integer; a wider one is an integer if it
fits there, and its bare digits otherwise. -/
def Value.ofWord : Word → Value
  | .int64 n => .integer n
  | .uint64 n => if n.toNat < 1 <<< 63 then .integer n.toInt64 else .raw n.toNat.repr
  | .int128 n =>
    if Int64.minValue.toInt ≤ n.toInt ∧ n.toInt ≤ Int64.maxValue.toInt then
      .integer (Int64.ofInt n.toInt)
    else .raw n.toInt.repr
  | .uint128 n => if n.toNat < 1 <<< 63 then .integer (Int64.ofNat n.toNat) else .raw n.toNat.repr

end ExampleTests

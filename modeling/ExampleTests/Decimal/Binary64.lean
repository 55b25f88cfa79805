/-! The number that the bits of a float stand for. A finite float is a
natural significand times a power of two, with a sign that zero keeps. -/

namespace ExampleTests

/-- A decoded float; `finite s m q` is `m * 2 ^ q`, negative if `s`. -/
inductive Binary64 where
  | nan
  | infinite (negative : Bool)
  | finite (negative : Bool) (significand : Nat) (exponent : Int)

namespace Binary64

/-- The exponent of subnormal numbers, the least there is. -/
def minExponent : Int := -1074

def leastNormal : Nat := 1 <<< 52

def ofFloat (x : Float) : Binary64 :=
  let bits := x.toBits.toNat
  let negative := decide (1 <<< 63 ≤ bits)
  let field : Nat := bits / leastNormal % 2048
  let fraction := bits % leastNormal
  if field = 2047 then
    if fraction = 0 then .infinite negative else .nan
  else if field = 0 then .finite negative fraction minExponent
  else .finite negative (leastNormal + fraction) (minExponent + ((field : Int) - 1))

end Binary64

end ExampleTests

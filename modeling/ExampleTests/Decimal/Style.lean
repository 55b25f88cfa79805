import ExampleTests.Decimal.Shortest

/-! Decimal text of a finite float. A style says which way ties go and which
numbers are written without an exponent; both notations have a digit on each
side of their point. -/

namespace ExampleTests.Decimal

namespace Digits

/-- Without an exponent, and with a point only in front of digits: `0.00ddd`, `dd.d` or `dd00`. -/
def plain (d : Digits) : List Char :=
  if d.point ≤ 0 then '0' :: '.' :: (List.replicate (-d.point).toNat '0' ++ d.digits)
  else
    let whole := d.point.toNat
    if d.digits.length ≤ whole then d.digits ++ List.replicate (whole - d.digits.length) '0'
    else d.digits.take whole ++ '.' :: d.digits.drop whole

def isWhole (d : Digits) : Bool := 0 < d.point && d.digits.length ≤ d.point.toNat

/-- Without an exponent and always with a point: `0.00ddd`, `dd.d` or `dd00.0`. -/
def positional (d : Digits) : List Char :=
  if d.isWhole then d.plain ++ ['.', '0'] else d.plain

/-- With an exponent that has its sign: `de+20`, `d.ddde-7`. -/
def scientific (d : Digits) : List Char :=
  let mantissa := match d.digits with
    | c :: c' :: rest => c :: '.' :: c' :: rest
    | short => short
  let exponent := d.point - 1
  let sign := if exponent < 0 then '-' else '+'
  mantissa ++ 'e' :: sign :: Nat.toDigits 10 exponent.natAbs

end Digits

structure Style where
  tie : Tie
  /-- Whether a number with its point there is written without an exponent. -/
  isPositional : Int → Bool

namespace Style

def magnitude (style : Style) (significand : Nat) (exponent : Int) : List Char :=
  if significand = 0 then ['0', '.', '0']
  else
    let d := shortest style.tie significand exponent
    if style.isPositional d.point then d.positional else d.scientific

/-- The text of `significand * 2 ^ exponent` with its sign. -/
def finite (style : Style) (negative : Bool) (significand : Nat) (exponent : Int) : List Char :=
  let text := style.magnitude significand exponent
  if negative then '-' :: text else text

end Style

end ExampleTests.Decimal

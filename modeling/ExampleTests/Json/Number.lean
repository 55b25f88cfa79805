import ExampleTests.Json.Fault

/-! JSON numbers. Digits go into a significand of 64 bits; those that do not
fit change the exponent only. A number without fraction and exponent that fits
is an integer, all others are floats, scaled by one rounded operation for each
308 powers of ten. -/

namespace ExampleTests.Json

/-- A reader consumes a part of the source and gives back the rest. -/
abbrev Reader (α : Type) := List Char → Except Fault (α × List Char)

def digitValue (c : Char) : Nat := c.toNat - '0'.toNat

def significandLimit : Nat := 1 <<< 64

def exponentLimit : Nat := 1 <<< 31

/-- Digits as long as the significand stays below the limit, with how many
they are. -/
def takeDigits (limit : Nat) : Nat → Nat → List Char → Nat × Nat × List Char
  | n, taken, [] => (n, taken, [])
  | n, taken, c :: rest =>
    let next := 10 * n + digitValue c
    if c.isDigit && next < limit then takeDigits limit next (taken + 1) rest
    else (n, taken, c :: rest)

def skipDigits (rest : List Char) : List Char := rest.dropWhile Char.isDigit

def startsWithDigit : List Char → Bool
  | c :: _ => c.isDigit
  | [] => false

def largestPower : Nat := 308

def powerOfTen (n : Nat) : Float := Float.ofScientific 1 false n

/-- `x * 10 ^ exponent`, or nothing if that is too large. A float below
`2 ^ 64` is zero after two divisions by the largest power, so three rounds are
enough. -/
def scaleFloat : Nat → Float → Int → Option Float
  | 0, x, _ => some x
  | rounds + 1, x, exponent =>
    if exponent.natAbs ≤ largestPower then
      let power := powerOfTen exponent.natAbs
      let scaled := if 0 ≤ exponent then x * power else x / power
      if scaled.isInf then none else some scaled
    else if x == 0 then some x
    else if 0 < exponent then none
    else scaleFloat rounds (x / powerOfTen largestPower) (exponent + largestPower)

def signed (negative : Bool) (x : Float) : Float := if negative then -x else x

def finishFloat (negative : Bool) (significand : Nat) (exponent : Int) : Reader Found := fun rest =>
  match scaleFloat 3 (UInt64.ofNat significand).toFloat exponent with
  | some x => .ok (.float (signed negative x), rest)
  | none => .error (.before .numberOutOfRange rest)

def exponentSign : List Char → Bool × List Char
  | '+' :: rest => (false, rest)
  | '-' :: rest => (true, rest)
  | rest => (false, rest)

def readExponent (negative : Bool) (significand : Nat) (start : Int) : Reader Found := fun rest =>
  let (down, rest) := exponentSign rest
  match rest with
  | [] => .error (.before .endInValue rest)
  | c :: _ =>
    if c.isDigit then
      let (size, _, rest) := takeDigits exponentLimit 0 0 rest
      if startsWithDigit rest then
        if significand ≠ 0 && !down then .error (.atNext .numberOutOfRange rest)
        else .ok (.float (signed negative 0), skipDigits rest)
      else finishFloat negative significand (if down then start - size else start + size) rest
    else .error (.atNext .invalidNumber rest)

def isExponentMark (c : Char) : Bool := c = 'e' || c = 'E'

def readScale (negative : Bool) (significand : Nat) (exponent : Int) : Reader Found
  | [] => finishFloat negative significand exponent []
  | c :: rest =>
    if isExponentMark c then readExponent negative significand exponent rest
    else finishFloat negative significand exponent (c :: rest)

def readFraction (negative : Bool) (significand : Nat) (exponent : Int) : Reader Found := fun rest =>
  if startsWithDigit rest then
    let (significand, taken, rest) := takeDigits significandLimit significand 0 rest
    readScale negative significand (exponent - taken) (skipDigits rest)
  else if rest.isEmpty then .error (.before .endInValue rest)
  else .error (.atNext .invalidNumber rest)

/-- An integer that has no sign, or one that fits with its sign. Zero with a
sign, and what does not fit, is a float. -/
def wholeNumber (negative : Bool) (n : Nat) : Found :=
  if !negative then .integer (.uint64 (UInt64.ofNat n))
  else if n = 0 || 1 <<< 63 < n then .float (-(UInt64.ofNat n).toFloat)
  else .integer (.int64 (Int64.ofInt (-n)))

def readAfterDigits (negative : Bool) (significand : Nat) : Reader Found := fun rest =>
  let more := rest.takeWhile Char.isDigit
  match skipDigits rest with
  | '.' :: rest => readFraction negative significand more.length rest
  | rest =>
    if !more.isEmpty || rest.head?.any isExponentMark then
      readScale negative significand more.length rest
    else .ok (wholeNumber negative significand, rest)

def readNumber (negative : Bool) : Reader Found
  | [] => .error (.before .endInValue [])
  | '0' :: rest =>
    if startsWithDigit rest then .error (.atNext .invalidNumber rest)
    else readAfterDigits negative 0 rest
  | c :: rest =>
    if c.isDigit then
      let (significand, _, rest) := takeDigits significandLimit 0 0 (c :: rest)
      readAfterDigits negative significand rest
    else .error (.atNext .invalidNumber (c :: rest))

end ExampleTests.Json

import ExampleTests.Mismatch
import ExampleTests.Yaml.Token

/-! What a plain scalar stands for by its text: nothing, a truth value, an
integer in one of four bases, a float, or the text itself. -/

namespace ExampleTests.Yaml.Plain

def isNull (text : List Char) : Bool :=
  ["null", "Null", "NULL", "~"].contains (String.ofList text)

def boolean? (text : List Char) : Option Bool :=
  let s := String.ofList text
  if ["true", "True", "TRUE"].contains s then some true
  else if ["false", "False", "FALSE"].contains s then some false
  else none

def digit? (base : Nat) (c : Char) : Option Nat :=
  let n :=
    if c.isDigit then some (c.toNat - '0'.toNat)
    else if 'a' ≤ c ∧ c ≤ 'f' then some (c.toNat - 'a'.toNat + 10)
    else if 'A' ≤ c ∧ c ≤ 'F' then some (c.toNat - 'A'.toNat + 10)
    else none
  n.filter (· < base)

/-- The number that the digits write, if there are digits and nothing else. -/
def natural? (base : Nat) (text : List Char) : Option Nat :=
  if text.isEmpty then none
  else (text.mapM (digit? base)).map (·.foldl (fun n d => base * n + d) 0)

/-- The base that is named by what an integer begins with. -/
def splitBase : List Char → Nat × List Char
  | '0' :: 'x' :: rest => (16, rest)
  | '0' :: 'o' :: rest => (8, rest)
  | '0' :: 'b' :: rest => (2, rest)
  | text => (10, text)

/-- Digits after a zero, with a sign or without, are no number. -/
def hasLeadingZero (text : List Char) : Bool :=
  let digits := match text with
    | '-' :: rest => rest
    | '+' :: rest => rest
    | _ => text
  match digits with
  | '0' :: rest => !rest.isEmpty && rest.all Char.isDigit
  | _ => false

def magnitude? (text : List Char) : Option Nat :=
  let (base, digits) := splitBase text
  natural? base digits

def integer? (text : List Char) : Option Int :=
  if hasLeadingZero text then none
  else
    match text with
    | '-' :: rest => (magnitude? rest).map fun n => -(n : Int)
    | '+' :: rest => (magnitude? rest).map Int.ofNat
    | _ => (magnitude? text).map Int.ofNat

/-- The integer in the word that holds it, if one does. -/
def word? (text : List Char) : Option Word := (integer? text).bind Word.ofInt?

/-- The exponent after its mark: digits with a sign or without. -/
def exponent? : List Char → Option Int
  | '-' :: rest => (natural? 10 rest).map fun n => -(n : Int)
  | '+' :: rest => (natural? 10 rest).map Int.ofNat
  | text => (natural? 10 text).map Int.ofNat

/-- The digits of a decimal, and the power of ten that they are multiplied by. -/
def decimal? (text : List Char) : Option (List Char × Int) := do
  let whole := text.takeWhile Char.isDigit
  let rest := text.dropWhile Char.isDigit
  let (fraction, rest) := match rest with
    | '.' :: rest => (rest.takeWhile Char.isDigit, rest.dropWhile Char.isDigit)
    | rest => ([], rest)
  if whole.isEmpty && fraction.isEmpty then none
  else
    let exponent ← match rest with
      | [] => some 0
      | 'e' :: rest => exponent? rest
      | 'E' :: rest => exponent? rest
      | _ => none
    some (whole ++ fraction, exponent - fraction.length)

/-- Beyond this many digits in front of the point a float is infinite, and with
this many zeros behind it a float is zero. -/
def decimalLimit : Int := 400

/-- The float nearest to a decimal, if it is finite. -/
def nearest? (digits : List Char) (exponent : Int) : Option Float :=
  let n := Nat.ofDigitChars 10 digits 0
  let size := (Nat.toDigits 10 n).length + exponent
  if n = 0 || size < -decimalLimit then some 0
  else if decimalLimit < size then none
  else
    let x := Float.ofScientific n (exponent < 0) exponent.natAbs
    if x.isFinite then some x else none

def finite? (text : List Char) : Option Float := do
  let (digits, exponent) ← decimal? text
  nearest? digits exponent

def isInfinity (text : List Char) : Bool :=
  [".inf", ".Inf", ".INF"].contains (String.ofList text)

def infinity : Float := Float.ofBits 0x7FF0000000000000

def notANumber : Float := Float.ofBits 0x7FF8000000000000

def float? (text : List Char) : Option Float :=
  if [".nan", ".NaN", ".NAN"].contains (String.ofList text) then some notANumber
  else
    match text with
    | '-' :: rest => if isInfinity rest then some (-infinity) else (finite? rest).map (-·)
    | '+' :: rest => if isInfinity rest then some infinity else finite? rest
    | _ => if isInfinity text then some infinity else finite? text

def resolve (text : List Char) : Found :=
  if text.isEmpty || isNull text then .unit
  else if let some b := boolean? text then .boolean b
  else if let some w := word? text then .integer w
  else if let some x := (if hasLeadingZero text then none else float? text) then .float x
  else .text (String.ofList text)

end ExampleTests.Yaml.Plain

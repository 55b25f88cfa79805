import ExampleTests.Spec

/-! The JSON text of a spec, without blanks. Absent parts are left out, words
become strings, and a float that is no number becomes null. -/

namespace ExampleTests.Json

/-- Ties go to the even digit; an exponent is written for numbers below
`10 ^ -5` and from `10 ^ 16` on. -/
def floatStyle : Decimal.Style := ⟨.toEven, fun point => -5 < point && point ≤ 16⟩

def writeFloat (x : Float) : List Char :=
  match Binary64.ofFloat x with
  | .nan | .infinite _ => "null".toList
  | .finite negative m q => floatStyle.finite negative m q

def hexDigit (n : Nat) : Char := Nat.digitChar (n % 16)

def escapeChar (c : Char) : List Char :=
  if c = '"' then ['\\', '"']
  else if c = '\\' then ['\\', '\\']
  else if c = '\x08' then ['\\', 'b']
  else if c = '\t' then ['\\', 't']
  else if c = '\n' then ['\\', 'n']
  else if c = '\x0c' then ['\\', 'f']
  else if c = '\r' then ['\\', 'r']
  else if c.toNat < 0x20 then ['\\', 'u', '0', '0', hexDigit (c.toNat / 16), hexDigit c.toNat]
  else [c]

def writeText (s : String) : List Char := '"' :: s.toList.flatMap escapeChar ++ ['"']

def writeValue : Value → List Char
  | .integer n => n.toInt.repr.toList
  | .float x => writeFloat x
  | .raw text => writeText text

def commas : List (List Char) → List Char
  | [] => []
  | [part] => part
  | part :: rest => part ++ ',' :: commas rest

def writeArray (parts : List (List Char)) : List Char := '[' :: commas parts ++ [']']

/-- An object of the members that are present. -/
def writeObject (members : List (String × Option (List Char))) : List Char :=
  let present := members.filterMap fun (name, value) => value.map (writeText name ++ ':' :: ·)
  '{' :: commas present ++ ['}']

def writeExample (e : Example) : List Char :=
  writeObject
    [("arguments", e.arguments.map fun values => writeArray (values.map writeValue)),
     ("return", e.returns.map writeValue)]

def writeSpec (s : Spec) : List Char :=
  writeObject
    [("subject", some (writeText s.subject)),
     ("examples", s.examples.map fun examples => writeArray (examples.map writeExample))]

def write (s : Spec) : String := String.ofList (writeSpec s)

end ExampleTests.Json

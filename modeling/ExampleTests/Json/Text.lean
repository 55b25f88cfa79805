import ExampleTests.Json.Number

/-! JSON strings after their opening quote. Text that is kept must be made of
whole characters; text that is skipped may hold halves of a surrogate pair. -/

namespace ExampleTests.Json

def hexValue? (c : Char) : Option Nat :=
  if c.isDigit then some (digitValue c)
  else if 'a' ≤ c ∧ c ≤ 'f' then some (c.toNat - 'a'.toNat + 10)
  else if 'A' ≤ c ∧ c ≤ 'F' then some (c.toNat - 'A'.toNat + 10)
  else none

/-- Four hexadecimal digits; without them four bytes are consumed. -/
def readHex : Reader Nat := fun rest =>
  if byteCount rest < 4 then .error ⟨.endInText, 0⟩
  else
    let invalid : Fault := ⟨.invalidEscape, byteCount rest - 4⟩
    match rest with
    | a :: b :: c :: d :: rest =>
      match hexValue? a, hexValue? b, hexValue? c, hexValue? d with
      | some a, some b, some c, some d => .ok (((a * 16 + b) * 16 + c) * 16 + d, rest)
      | _, _, _, _ => .error invalid
    | _ => .error invalid

def isHighSurrogate (n : Nat) : Bool := 0xD800 ≤ n && n ≤ 0xDBFF

def isLowSurrogate (n : Nat) : Bool := 0xDC00 ≤ n && n ≤ 0xDFFF

/-- Consumes one given character in front of the second half of a pair. -/
def expectInPair (c : Char) : List Char → Except Fault (List Char)
  | [] => .error (.before .endInText [])
  | d :: rest => if d = c then .ok rest else .error (.atNext .halfSurrogatePair (d :: rest))

/-- The character of a `\u` escape, which may be a pair of them. -/
def readUnicode : Reader Char := fun rest => do
  let (n, rest) ← readHex rest
  if isLowSurrogate n then .error (.before .loneSurrogate rest)
  else if isHighSurrogate n then
    let rest ← expectInPair '\\' rest
    let rest ← expectInPair 'u' rest
    let (low, rest) ← readHex rest
    if isLowSurrogate low then
      .ok (Char.ofNat ((n - 0xD800) * 0x400 + (low - 0xDC00) + 0x10000), rest)
    else .error (.before .loneSurrogate rest)
  else .ok (Char.ofNat n, rest)

def escaped? (c : Char) : Option Char :=
  match c with
  | '"' => some '"'
  | '\\' => some '\\'
  | '/' => some '/'
  | 'b' => some '\x08'
  | 'f' => some '\x0c'
  | 'n' => some '\n'
  | 'r' => some '\r'
  | 't' => some '\t'
  | _ => none

def readEscape : Reader Char
  | [] => .error (.before .endInText [])
  | 'u' :: rest => readUnicode rest
  | c :: rest =>
    match escaped? c with
    | some d => .ok (d, rest)
    | none => .error (.atNext .invalidEscape (c :: rest))

def readCharacter : Reader (Option Char)
  | [] => .error (.before .endInText [])
  | '"' :: rest => .ok (none, rest)
  | '\\' :: rest => do
    let (c, rest) ← readEscape rest
    .ok (some c, rest)
  | c :: rest =>
    if c.toNat < 0x20 then .error (.atNext .controlCharacter (c :: rest))
    else .ok (some c, rest)

/-- Reads a string up to its closing quote, in at most `fuel` characters. -/
def readCharacters : Nat → Reader (List Char)
  | 0, rest => .error (.before .endInText rest)
  | fuel + 1, rest => do
    match ← readCharacter rest with
    | (none, rest) => .ok ([], rest)
    | (some c, rest) =>
      let (cs, rest) ← readCharacters fuel rest
      .ok (c :: cs, rest)

/-- Each character takes some of the source, so its length is enough fuel. -/
def readText : Reader String := fun rest => do
  let (cs, rest) ← readCharacters (rest.length + 1) rest
  .ok (String.ofList cs, rest)

def skipEscape : List Char → Except Fault (List Char)
  | [] => .error (.before .endInText [])
  | 'u' :: rest => do
    let (_, rest) ← readHex rest
    .ok rest
  | c :: rest => if (escaped? c).isSome then .ok rest else .error (.atNext .invalidEscape (c :: rest))

def skipCharacters : Nat → List Char → Except Fault (List Char)
  | 0, rest => .error (.before .endInText rest)
  | _ + 1, [] => .error (.before .endInText [])
  | _ + 1, '"' :: rest => .ok rest
  | fuel + 1, '\\' :: rest => do skipCharacters fuel (← skipEscape rest)
  | fuel + 1, c :: rest =>
    if c.toNat < 0x20 then .error (.before .controlCharacter (c :: rest))
    else skipCharacters fuel rest

def skipText (rest : List Char) : Except Fault (List Char) := skipCharacters (rest.length + 1) rest

end ExampleTests.Json

import ExampleTests.Json.Text

/-! Values under keys that mean nothing. They must be well formed, but are
nested to any depth and numbers may have any size. -/

namespace ExampleTests.Json

def isBlank (c : Char) : Bool := c = ' ' || c = '\t' || c = '\n' || c = '\r'

def skipBlanks (rest : List Char) : List Char := rest.dropWhile isBlank

def expectWord : List Char → List Char → Except Fault (List Char)
  | [], rest => .ok rest
  | _ :: _, [] => .error (.before .endInValue [])
  | w :: word, c :: rest =>
    if c = w then expectWord word rest else .error (.atNext .expectedWord (c :: rest))

def skipExponent (rest : List Char) : Except Fault (List Char) :=
  let (_, rest) := exponentSign rest
  if startsWithDigit rest then .ok (skipDigits rest) else .error (.atNext .invalidNumber rest)

def skipScale : List Char → Except Fault (List Char)
  | [] => .ok []
  | c :: rest => if isExponentMark c then skipExponent rest else .ok (c :: rest)

def skipFraction : List Char → Except Fault (List Char)
  | '.' :: rest =>
    if startsWithDigit rest then skipScale (skipDigits rest) else .error (.atNext .invalidNumber rest)
  | rest => skipScale rest

def skipNumber : List Char → Except Fault (List Char)
  | '0' :: rest =>
    if startsWithDigit rest then .error (.atNext .invalidNumber rest) else skipFraction rest
  | rest =>
    if startsWithDigit rest then skipFraction (skipDigits rest)
    else .error (.atNext .invalidNumber rest)

inductive Frame where
  | array
  | object
deriving DecidableEq

namespace Frame

def closing : Frame → Char
  | array => ']'
  | object => '}'

def endReason : Frame → Reason
  | array => .endInList
  | object => .endInObject

def separatorReason : Frame → Reason
  | array => .expectedCommaOrBracket
  | object => .expectedCommaOrBrace

end Frame

inductive Stage where
  | value
  /-- An entry or the end of a frame that has just been opened. -/
  | entry
  /-- A comma or the end of the innermost frame. -/
  | separator
deriving DecidableEq

def expectColon (rest : List Char) : Except Fault (List Char) :=
  match skipBlanks rest with
  | ':' :: rest => .ok rest
  | [] => .error (.before .endInObject [])
  | rest => .error (.atNext .expectedColon rest)

/-- Skips the key of an entry, if entries of the frame have one. -/
def skipKey (frame : Frame) (rest : List Char) : Except Fault (List Char) :=
  match frame with
  | .array => .ok rest
  | .object =>
    match skipBlanks rest with
    | '"' :: rest => do expectColon (← skipText rest)
    | [] => .error (.before .endInObject [])
    | rest => .error (.atNext .keyNotText rest)

/-- Skips a scalar, or opens a frame. -/
def skipOpening : List Char → Except Fault (Option Frame × List Char)
  | [] => .error (.before .endInValue [])
  | '[' :: rest => .ok (some .array, rest)
  | '{' :: rest => .ok (some .object, rest)
  | '"' :: rest => do .ok (none, ← skipText rest)
  | 'n' :: rest => do .ok (none, ← expectWord ['u', 'l', 'l'] rest)
  | 't' :: rest => do .ok (none, ← expectWord ['r', 'u', 'e'] rest)
  | 'f' :: rest => do .ok (none, ← expectWord ['a', 'l', 's', 'e'] rest)
  | '-' :: rest => do .ok (none, ← skipNumber rest)
  | c :: rest =>
    if c.isDigit then do .ok (none, ← skipNumber (c :: rest))
    else .error (.atNext .expectedValue (c :: rest))

/-- Skips the rest of a value that has the given frames open. -/
def skipFrames : Nat → Stage → List Frame → List Char → Except Fault (List Char)
  | 0, _, _, rest => .error (.before .endInValue rest)
  | fuel + 1, .value, frames, rest => do
    match ← skipOpening (skipBlanks rest) with
    | (some frame, rest) => skipFrames fuel .entry (frame :: frames) rest
    | (none, rest) => skipFrames fuel .separator frames rest
  | _ + 1, _, [], rest => .ok rest
  | fuel + 1, stage, frame :: frames, rest =>
    match skipBlanks rest with
    | [] => .error (.before frame.endReason [])
    | c :: rest =>
      if c = frame.closing then skipFrames fuel .separator frames rest
      else if stage = .entry then do
        skipFrames fuel .value (frame :: frames) (← skipKey frame (c :: rest))
      else if c = ',' then do
        skipFrames fuel .value (frame :: frames) (← skipKey frame rest)
      else .error (.atNext frame.separatorReason (c :: rest))

/-- Two steps take at least one character, so twice the length is enough. -/
def skipValue (rest : List Char) : Except Fault (List Char) :=
  skipFrames (2 * rest.length + 2) .value [] rest

end ExampleTests.Json

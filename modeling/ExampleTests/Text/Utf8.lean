/-! Text as bytes. A sequence of bytes is decoded character by character; where
no character can be read, a decoder either fails or puts in the replacement
character for the longest part that could have begun one. -/

namespace ExampleTests

abbrev Bytes := List UInt8

namespace Text

def encode (s : String) : Bytes := s.toUTF8.toList

/-- The least and the greatest byte that may follow a first byte, and how many
bytes follow it. -/
def continuation? (b : UInt8) : Option (Nat × UInt8 × UInt8) :=
  if b < 0x80 then some (0, 0x80, 0xBF)
  else if b < 0xC2 then none
  else if b < 0xE0 then some (1, 0x80, 0xBF)
  else if b = 0xE0 then some (2, 0xA0, 0xBF)
  else if b = 0xED then some (2, 0x80, 0x9F)
  else if b < 0xF0 then some (2, 0x80, 0xBF)
  else if b = 0xF0 then some (3, 0x90, 0xBF)
  else if b < 0xF4 then some (3, 0x80, 0xBF)
  else if b = 0xF4 then some (3, 0x80, 0x8F)
  else none

/-- The bits of a first byte that belong to the code point. -/
def leadingBits (b : UInt8) (following : Nat) : Nat :=
  match following with
  | 0 => b.toNat
  | 1 => b.toNat % 0x20
  | 2 => b.toNat % 0x10
  | _ => b.toNat % 0x08

/-- A character being decoded: how many bytes are owed, the range of the next
one, and the bits so far. -/
structure Pending where
  owed : Nat
  low : UInt8
  high : UInt8
  bits : Nat

inductive Step where
  | done (c : Char)
  | more (p : Pending)
  | refused

def start (b : UInt8) : Step :=
  match continuation? b with
  | none => .refused
  | some (0, _, _) => .done (Char.ofNat b.toNat)
  | some (n, low, high) => .more ⟨n, low, high, leadingBits b n⟩

def follow (p : Pending) (b : UInt8) : Step :=
  if p.low ≤ b ∧ b ≤ p.high then
    let bits := p.bits * 0x40 + b.toNat % 0x40
    if p.owed = 1 then .done (Char.ofNat bits) else .more ⟨p.owed - 1, 0x80, 0xBF, bits⟩
  else .refused

def replacement : Char := '\uFFFD'

/-- Decodes all bytes, with the replacement character for what is no text. -/
def decodeLossyFrom : Option Pending → Bytes → List Char
  | none, [] => []
  | some _, [] => [replacement]
  | none, b :: rest =>
    match start b with
    | .done c => c :: decodeLossyFrom none rest
    | .more p => decodeLossyFrom (some p) rest
    | .refused => replacement :: decodeLossyFrom none rest
  | some p, b :: rest =>
    match follow p b with
    | .done c => c :: decodeLossyFrom none rest
    | .more p => decodeLossyFrom (some p) rest
    | .refused =>
      replacement :: match start b with
        | .done c => c :: decodeLossyFrom none rest
        | .more p => decodeLossyFrom (some p) rest
        | .refused => replacement :: decodeLossyFrom none rest

def decodeLossy (bytes : Bytes) : String := String.ofList (decodeLossyFrom none bytes)

def decodeFrom : Option Pending → Bytes → Option (List Char)
  | none, [] => some []
  | some _, [] => none
  | state, b :: rest =>
    match state.elim (start b) (follow · b) with
    | .done c => (decodeFrom none rest).map (c :: ·)
    | .more p => decodeFrom (some p) rest
    | .refused => none

def decode? (bytes : Bytes) : Option String := (decodeFrom none bytes).map String.ofList

end Text

end ExampleTests

/-! How alike two words are, from 0 to 1: the share of letters that have a
partner nearby in the other word, less what of it is out of order. -/

namespace ExampleTests.CommandLine

/-- A letter of a word and whether it has been given a partner. -/
structure Slot where
  letter : Char
  taken : Bool := false

/-- How far apart partners may stand. -/
def reach (a b : List Char) : Nat := max a.length b.length / 2 - 1

/-- Gives the letter at position `i` of one word the first free equal letter of
the other within reach. -/
def pair (reach i : Nat) (c : Char) (slots : List Slot) : Option (List Slot) :=
  match slots.zipIdx.find? fun (s, j) =>
      !s.taken && s.letter == c && i ≤ j + reach && j ≤ i + reach with
  | none => none
  | some (s, j) => some (slots.set j { s with taken := true })

/-- The letters of `a` that find partners, in order, and the slots of `b`
after that. -/
def pairAll (reach : Nat) : Nat → List Char → List Slot → List Char × List Slot
  | _, [], slots => ([], slots)
  | i, c :: rest, slots =>
    match pair reach i c slots with
    | none => pairAll reach (i + 1) rest slots
    | some slots =>
      let (found, slots) := pairAll reach (i + 1) rest slots
      (c :: found, slots)

def likeness (a b : String) : Float :=
  let as := a.toList
  let bs := b.toList
  if as.isEmpty && bs.isEmpty then 1
  else
    let (found, slots) := pairAll (reach as bs) 0 as (bs.map ({ letter := · }))
    let partners := (slots.filter (·.taken)).map (·.letter)
    let displaced := ((found.zip partners).filter fun (c, d) => c != d).length / 2
    let count := found.length.toFloat
    if found.isEmpty then 0
    else
      (count / as.length.toFloat + count / bs.length.toFloat +
        (found.length - displaced).toFloat / count) / 3

/-- The candidates that are much like a word, the most alike last. -/
def similar {α : Type} (name : α → String) (word : String) (candidates : List α) : List α :=
  let scored := candidates.map fun c => (c, likeness word (name c))
  ((scored.filter fun (_, score) => score > 0.7).mergeSort fun x y => x.2 ≤ y.2).map (·.1)

end ExampleTests.CommandLine

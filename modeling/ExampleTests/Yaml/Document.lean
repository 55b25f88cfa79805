import ExampleTests.Yaml.Event.Grammar

/-! The first document of a source, as a list of items. An alias refers to an
anchor by number, and an anchor to the items from its node on. -/

namespace ExampleTests.Yaml

inductive Item where
  | alias (anchor : Nat)
  | scalar (s : Scalar)
  | sequenceStart (tag : Option Bytes)
  | sequenceEnd
  | mappingStart (tag : Option Bytes)
  | mappingEnd
  /-- The only item of an empty stream. -/
  | nothing

inductive Break where
  | fault (f : Fault)
  | unknownAnchor (m : Mark)

structure Document where
  items : List (Marked Item) := []
  /-- The place of each anchor's node among the items; of two for one number
  the first counts. -/
  anchors : List (Nat × Nat) := []
  broken : Option Break := none
  /-- Whether anything but the end of the stream follows. -/
  followed : Bool := false

namespace Document

/-- A document as far as it has been read, with the numbers of the anchor
names that have been used. -/
structure Draft where
  items : List (Marked Item) := []
  anchors : List (Nat × Nat) := []
  names : List (String × Nat) := []

namespace Draft

/-- An anchor has the number of names before it. A name that is used again
gets a new number, which a later name may share. -/
def define (d : Draft) (anchor : Option String) : Draft :=
  match anchor with
  | none => d
  | some name =>
    let number := d.names.length
    { d with
      anchors := (number, d.items.length) :: d.anchors
      names := (name, number) :: d.names.filter (·.1 ≠ name) }

def add (d : Draft) (item : Item) (m : Mark) : Draft := { d with items := d.items ++ [(item, m)] }

def finish (d : Draft) (broken : Option Break) (followed : Bool) : Document :=
  { items := d.items, anchors := d.anchors, broken, followed }

end Draft

/-- Whether the events after a document are more than the end of the stream. -/
def isFollowed : List (Marked Event) → Bool
  | (.streamEnd, _) :: _ => false
  | _ => true

def collect (fault : Option Fault) : List (Marked Event) → Draft → Document
  | [], d => d.finish (fault.map .fault) false
  | (e, m) :: rest, d =>
    match e with
    | .documentStart => collect fault rest d
    | .documentEnd => d.finish none (isFollowed rest)
    | .streamEnd => (if d.items.isEmpty then d.add .nothing m else d).finish none false
    | .alias name =>
      match d.names.lookup name with
      | some number => collect fault rest (d.add (.alias number) m)
      | none => d.finish (some (.unknownAnchor m)) true
    | .scalar anchor s => collect fault rest ((d.define anchor).add (.scalar s) m)
    | .sequenceStart p => collect fault rest ((d.define p.anchor).add (.sequenceStart p.tag) m)
    | .sequenceEnd => collect fault rest (d.add .sequenceEnd m)
    | .mappingStart p => collect fault rest ((d.define p.anchor).add (.mappingStart p.tag) m)
    | .mappingEnd => collect fault rest (d.add .mappingEnd m)

def ofSource (source : String) : Document :=
  let (es, fault) := events source
  collect fault es {}

/-- The items from the node of an anchor on. -/
def target (d : Document) (anchor : Nat) : List (Marked Item) :=
  match d.anchors.lookup anchor with
  | some place => d.items.drop place
  | none => []

end Document

end ExampleTests.Yaml

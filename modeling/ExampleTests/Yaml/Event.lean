import ExampleTests.Yaml.Token

/-! The events of a YAML source: its documents, and the nodes in them with
their tags and anchors. Each has the place where its text begins. -/

namespace ExampleTests.Yaml

/-- What may stand in front of a node. -/
structure Properties where
  anchor : Option String := none
  tag : Option Bytes := none

structure Scalar where
  text : String := ""
  style : Style := .plain
  tag : Option Bytes := none

inductive Event where
  | streamEnd
  | documentStart
  | documentEnd
  | alias (name : String)
  | scalar (anchor : Option String) (s : Scalar)
  | sequenceStart (p : Properties)
  | sequenceEnd
  | mappingStart (p : Properties)
  | mappingEnd

abbrev Marked (α : Type) := α × Mark

end ExampleTests.Yaml

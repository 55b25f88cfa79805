import ExampleTests.Spec

/-! A spec is valid if it has a list of examples, which may be empty, and
each example says what the call returns. -/

namespace ExampleTests

inductive Issue where
  | missingExamples
  | missingReturn (index : Nat)
deriving DecidableEq

namespace Issue

def message : Issue → String
  | missingExamples => "spec has no `examples` list"
  | missingReturn index => "example #" ++ index.repr ++ " has no `return` value"

end Issue

namespace Spec

def issue? (s : Spec) : Option Issue :=
  match s.examples with
  | none => some .missingExamples
  | some examples => (examples.findIdx? (·.returns.isNone)).map .missingReturn

def isValid (s : Spec) : Bool := s.issue?.isNone

end Spec

end ExampleTests

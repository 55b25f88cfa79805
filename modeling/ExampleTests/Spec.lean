import ExampleTests.Value

/-! A spec names a function and lists examples of its calls. An absent list
is told apart from an empty one, in the spec and in each example. -/

namespace ExampleTests

structure Example where
  arguments : Option (List Value) := none
  returns : Option Value := none
deriving BEq, Inhabited

structure Spec where
  subject : String := ""
  examples : Option (List Example) := none
deriving BEq, Inhabited

namespace Example

def argumentList (e : Example) : List Value := e.arguments.getD []

end Example

namespace Spec

def exampleList (s : Spec) : List Example := s.examples.getD []

def hasExamples (s : Spec) : Bool := !s.exampleList.isEmpty

/-- Appends an example; an absent list becomes a list of one. -/
def push (s : Spec) (e : Example) : Spec :=
  { s with examples := some (s.exampleList ++ [e]) }

end Spec

end ExampleTests

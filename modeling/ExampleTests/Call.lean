import ExampleTests.Spec

/-! The text of a call, in the two forms that languages use, and the title
of an example. An absent argument list reads as an empty one. -/

namespace ExampleTests

inductive CallForm where
  /-- `f(a, b)`, and `f()` for no arguments. -/
  | parenthesized
  /-- `f a b`, and `f` for no arguments. -/
  | curried
deriving DecidableEq

namespace CallForm

def write (form : CallForm) (subject : String) (arguments : List Value) : String :=
  let texts := arguments.map Value.render
  match form with
  | parenthesized => subject ++ "(" ++ String.intercalate ", " texts ++ ")"
  | curried => if texts.isEmpty then subject else subject ++ " " ++ String.intercalate " " texts

end CallForm

/-- The text of what a call returns; nothing for an unknown result. -/
def returnText : Option Value → String
  | none => ""
  | some v => v.render

/-- What an example says, in words. -/
def title (call : String) (returns : Option Value) : String :=
  call ++ " should return " ++ returnText returns

end ExampleTests

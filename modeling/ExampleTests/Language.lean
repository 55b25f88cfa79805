import ExampleTests.Call

/-! The languages that tests are written in, their tokens and what each of
them asks of a document. -/

namespace ExampleTests

inductive Language where
  | haskell
  | javaScript
  | gobstones
deriving DecidableEq

/-- A token that names no language, and those that do, between commas. -/
structure UnknownLanguage where
  token : String
  known : String
deriving DecidableEq

namespace Language

def all : List Language := [haskell, javaScript, gobstones]

def token : Language → String
  | haskell => "haskell"
  | javaScript => "javascript"
  | gobstones => "gobstones"

def displayName : Language → String
  | haskell => "Haskell"
  | javaScript => "JavaScript"
  | gobstones => "Gobstones"

/-- Whether one document may hold several examples. It changes no document. -/
def groupsExamples : Language → Bool
  | haskell | javaScript => true
  | gobstones => false

def callForm : Language → CallForm
  | haskell => .curried
  | javaScript | gobstones => .parenthesized

def ofToken? (token : String) : Option Language :=
  all.find? (·.token == token)

def knownTokens : List String := all.map token

def call (language : Language) (subject : String) (e : Example) : String :=
  language.callForm.write subject e.argumentList

def exampleTitle (language : Language) (subject : String) (e : Example) : String :=
  title (language.call subject e) e.returns

end Language

namespace UnknownLanguage

def ofToken (token : String) : UnknownLanguage :=
  ⟨token, String.intercalate ", " Language.knownTokens⟩

def message (e : UnknownLanguage) : String :=
  "unknown language `" ++ e.token ++ "` (expected one of: " ++ e.known ++ ")"

end UnknownLanguage

def Language.ofToken (token : String) : Except UnknownLanguage Language :=
  match ofToken? token with
  | some language => .ok language
  | none => .error (.ofToken token)

end ExampleTests

import ExampleTests.Language
import ExampleTests.LineBuffer

/-! The test document of a spec. Each language has an opening, one block for
each example in their order, and a closing; a document can be written into a
buffer that holds other lines. -/

namespace ExampleTests

namespace Language

def writeExample (language : Language) (subject : String) (b : LineBuffer) (e : Example) : LineBuffer :=
  let heading := language.exampleTitle subject e
  let call := language.call subject e
  let expected := returnText e.returns
  match language with
  | haskell =>
    ((b.line ("it \"" ++ heading ++ "\" $ do")).indent.line (call ++ " `shouldBe` " ++ expected)).dedent
  | javaScript =>
    (((b.line ("it(\"" ++ heading ++ "\", function() \x7b")).indent.line
      ("assertEqual(" ++ expected ++ ", " ++ call ++ ");")).dedent).line "\x7d);"
  | gobstones =>
    ((b.line ("- title: " ++ heading)).indent.line ("return: " ++ expected)).dedent

/-- Writes the whole document, and leaves the level of the buffer as it was. -/
def write (language : Language) (spec : Spec) (b : LineBuffer) : LineBuffer :=
  let blocks (b : LineBuffer) := spec.exampleList.foldl (language.writeExample spec.subject) b
  match language with
  | haskell => (blocks (b.line ("describe \"" ++ spec.subject ++ ": \" $ do")).indent).dedent
  | javaScript =>
    (blocks (b.line ("describe(\"" ++ spec.subject ++ ": \", function() \x7b")).indent).dedent.line "\x7d);"
  | gobstones => blocks ((b.line ("subject: " ++ spec.subject)).line "examples:")

def document (language : Language) (spec : Spec) : String :=
  (language.write spec LineBuffer.empty).finish

end Language

end ExampleTests

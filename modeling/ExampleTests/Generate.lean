import ExampleTests.Document
import ExampleTests.Log.Event

/-! Tests from a spec, for a language or for the token of one. A spec without
examples gives an empty text, whatever the token. -/

namespace ExampleTests

def Language.generate (language : Language) (spec : Spec) : String :=
  if spec.hasExamples then language.document spec else ""

/-- The token is looked up only if there is something to generate. An invalid
spec is reported and generated all the same. -/
def generate (token : String) (spec : Spec) : Logged (Except UnknownLanguage String) :=
  let during := Activity.generating token spec.subject spec.exampleList.length
  if spec.hasExamples then
    match Language.ofToken token with
    | .error e => ⟨.error e, []⟩
    | .ok language =>
      ⟨.ok (language.generate spec), (spec.issue?.map (Event.invalidSpec during language)).toList⟩
  else ⟨.ok "", [.nothingToGenerate during]⟩

end ExampleTests

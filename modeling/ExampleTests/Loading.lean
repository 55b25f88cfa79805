import ExampleTests.FileAccess
import ExampleTests.Json.Read
import ExampleTests.Yaml.Read
import ExampleTests.Log.Event

/-! Specs from files. The name of a file decides the format before anything is
read. -/

namespace ExampleTests

inductive SourceFormat where
  | json
  | yaml
deriving DecidableEq

inductive LoadError where
  | io (error : IoError)
  | json (error : Json.Error)
  | yaml (error : Yaml.Error)
  | unsupported (path : PathName)

namespace SourceFormat

def ofExtension? (bytes : Bytes) : Option SourceFormat :=
  if bytes = Text.encode "json" then some json
  else if bytes = Text.encode "yaml" ∨ bytes = Text.encode "yml" then some yaml
  else none

def ofPath (path : PathName) : Except LoadError SourceFormat :=
  match path.extension?.bind ofExtension? with
  | some format => .ok format
  | none => .error (.unsupported path)

def parseSpec (format : SourceFormat) (source : String) : Except LoadError Spec :=
  match format with
  | json => (Json.parseSpec source).mapError .json
  | yaml => (Yaml.parseSpec source).mapError .yaml

end SourceFormat

def LoadError.message : LoadError → String
  | io e => "I/O error: " ++ e.message
  | json e => "invalid JSON spec: " ++ e.message
  | yaml e => "invalid YAML spec: " ++ e.message
  | unsupported path =>
    "unsupported spec file \x60" ++ path.text ++ "\x60 (expected .json, .yaml or .yml)"

/-- A loaded spec is reported, a failure is not. -/
def loadSpec {m : Type → Type} [Monad m] (files : FileAccess m) (path : PathName) :
    m (Logged (Except LoadError Spec)) := do
  match SourceFormat.ofPath path with
  | .error e => return ⟨.error e, []⟩
  | .ok format =>
    match (← files.read path).mapError .io >>= format.parseSpec with
    | .error e => return ⟨.error e, []⟩
    | .ok spec => return ⟨.ok spec, [.loaded path.text spec.subject spec.exampleList.length]⟩

end ExampleTests

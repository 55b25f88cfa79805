import ExampleTests.Mismatch
import ExampleTests.Yaml.Document

/-! What can be wrong with a YAML source that is read as a spec, and where: in
which part of the spec, and at which node of the source. -/

namespace ExampleTests.Yaml

inductive Path where
  | root
  | element (parent : Path) (index : Nat)
  | member (parent : Path) (key : String)
  /-- The value of a key that is written as an alias. -/
  | unnamed (parent : Path)

namespace Path

/-- The text in front of the name of a member. -/
def lead : Path → String → String
  | root, _ => ""
  | _, text => text ++ "."

def text : Path → String
  | root => ""
  | element parent index => parent.text ++ "[" ++ index.repr ++ "]"
  | member parent key => parent.lead parent.text ++ key
  | unnamed parent => parent.lead parent.text ++ "?"

def isRoot : Path → Bool
  | root => true
  | _ => false

end Path

inductive Reason where
  | mismatch (m : Mismatch)
  /-- A scalar does not have the form that its tag asks for. -/
  | invalidValue (text : String) (wanted : Wanted)
  | duplicateField (name : String)
  | broken (b : Break)
  | tooManyAliases
  | endOfDocument
  | severalDocuments

namespace Reason

def wording : Wording := ⟨"unit value", Value.floatText⟩

/-- Whether the reason is about a part of the spec. -/
def isAboutPart : Reason → Bool
  | mismatch _ | invalidValue .. | duplicateField _ => true
  | _ => false

def breakMessage : Break → String
  | .fault f => f.message
  | .unknownAnchor m => "unknown anchor" ++ (if m.isOrigin then "" else " at " ++ m.text)

def message : Reason → String
  | mismatch m => m.message wording
  | invalidValue text wanted =>
    "invalid value: string " ++ Text.quote text ++ ", expected " ++ wanted.describe
  | duplicateField name => "duplicate field `" ++ name ++ "`"
  | broken b => breakMessage b
  | tooManyAliases => "repetition limit exceeded"
  | endOfDocument => "EOF while parsing a value"
  | severalDocuments => "deserializing from YAML containing more than one document is not supported"

end Reason

structure Error where
  reason : Reason
  place : Option (Path × Mark) := none

namespace Error

/-- Adds the place of a part to an error about one that has none. -/
def inPart (path : Path) (m : Mark) (e : Error) : Error :=
  if e.reason.isAboutPart && e.place.isNone then { e with place := some (path, m) } else e

def message (e : Error) : String :=
  match e.place with
  | none => e.reason.message
  | some (path, m) =>
    (if path.isRoot then "" else path.text ++ ": ") ++ e.reason.message ++
      (if m.isOrigin then "" else " at " ++ m.text)

end Error

end ExampleTests.Yaml

import ExampleTests.PathName

/-! Reading and writing whole files of text, and why either may fail. What
stands behind the names is left open: a store in memory or the machine's own. -/

namespace ExampleTests

inductive IoError where
  | notFound
  | isDirectory
  | notDirectory
  | nameTooLong
  | notText
  | nulInName
  | other (text : String)
deriving DecidableEq

namespace IoError

def message : IoError → String
  | notFound => "No such file or directory (os error 2)"
  | isDirectory => "Is a directory (os error 21)"
  | notDirectory => "Not a directory (os error 20)"
  | nameTooLong => "File name too long (os error 36)"
  | notText => "stream did not contain valid UTF-8"
  | nulInName => "file name contained an unexpected NUL byte"
  | other text => text

end IoError

/-- A failed write changes nothing; a successful one replaces the whole file. -/
structure FileAccess (m : Type → Type) where
  read : PathName → m (Except IoError String)
  write : PathName → String → m (Except IoError Unit)

end ExampleTests

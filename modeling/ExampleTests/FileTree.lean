import ExampleTests.FileAccess

/-! Files and directories in memory. Names are followed piece by piece from a
working directory; nothing is known of what lies outside it. -/

namespace ExampleTests

/-- The pieces that lead from the working directory to an entry. -/
abbrev Place := List Bytes

inductive Entry where
  | directory
  | file (content : Bytes)

/-- The working directory itself is the empty place and has no entry. -/
structure FileTree where
  entry? : Place → Option Entry

/-- Where the pieces of a name have led; outside, there is no place. -/
inductive Reached where
  | directory (place : Option Place)
  | file (place : Place) (content : Bytes)
  | vacant (place : Option Place)

namespace FileTree

def empty : FileTree := ⟨fun _ => none⟩

def put (t : FileTree) (place : Place) (e : Entry) : FileTree :=
  ⟨fun other => if other = place then some e else t.entry? other⟩

def longestPiece : Nat := 255

def longestName : Nat := 4095

/-- One piece further, which only a directory allows. -/
def next (t : FileTree) : Reached → Bytes → Except IoError Reached
  | .file .., _ => .error .notDirectory
  | .vacant _, _ => .error .notFound
  | .directory place, piece =>
    if PathName.staysInPlace piece then .ok (.directory place)
    else if PathName.goesUp piece then
      .ok (.directory (place.bind fun p => if p.isEmpty then none else some p.dropLast))
    else if longestPiece < piece.length then .error .nameTooLong
    else
      match place with
      | none => .ok (.vacant none)
      | some p =>
        let q := p ++ [piece]
        match t.entry? q with
        | none => .ok (.vacant (some q))
        | some .directory => .ok (.directory (some q))
        | some (.file content) => .ok (.file q content)

def follow (t : FileTree) (name : PathName) (pieces : List Bytes) : Except IoError Reached :=
  if 0 ∈ name.bytes then .error .nulInName
  else if name.bytes.isEmpty then .error .notFound
  else if longestName < name.bytes.length then .error .nameTooLong
  else pieces.foldlM t.next (.directory (if name.isAbsolute then none else some []))

def read (t : FileTree) (name : PathName) : Except IoError String := do
  match ← t.follow name name.pieces with
  | .directory _ => .error .isDirectory
  | .vacant _ => .error .notFound
  | .file _ content =>
    match Text.decode? content with
    | some s => .ok s
    | none => .error .notText

/-- A name that ends in a slash is taken for a directory, even if there is none. -/
def write (t : FileTree) (name : PathName) (text : String) : Except IoError FileTree := do
  let reached ← t.follow name (name.pieces.reverse.dropWhile (·.isEmpty)).reverse
  if name.bytes.getLast? = some PathName.slash then .error .isDirectory
  else
    match reached with
    | .file place _ | .vacant (some place) => .ok (t.put place (.file (Text.encode text)))
    | .directory _ => .error .isDirectory
    | .vacant none => .error .notFound

def parents (place : Place) : List Place := (List.range place.length).tail.map place.take

def putDirectory (t : FileTree) (name : PathName) : FileTree :=
  let place := name.pieces.filter (!PathName.staysInPlace ·)
  (parents place ++ [place]).foldl (·.put · .directory) t

def putFile (t : FileTree) (name : PathName) (content : Bytes) : FileTree :=
  let place := name.pieces.filter (!PathName.staysInPlace ·)
  ((parents place).foldl (·.put · .directory) t).put place (.file content)

def content? (t : FileTree) (name : PathName) : Option Bytes :=
  match t.follow name name.pieces with
  | .ok (.file _ content) => some content
  | _ => none

def access : FileAccess (StateM FileTree) where
  read name := fun t => (t.read name, t)
  write name text := fun t =>
    match t.write name text with
    | .ok written => (.ok (), written)
    | .error e => (.error e, t)

end FileTree

end ExampleTests

import ExampleTests.CommandLine.Run

/-! The program on a machine: its files, its streams and its environment. -/

namespace ExampleTests

def IoError.ofCode (code : UInt32) (details : String) : IoError :=
  match code with
  | 2 => .notFound
  | 20 => .notDirectory
  | 21 => .isDirectory
  | 36 => .nameTooLong
  | _ => .other (details ++ " (os error " ++ code.toNat.repr ++ ")")

def IoError.ofMachine : IO.Error → IoError
  | .noFileOrDirectory _ code details => .ofCode code details
  | .inappropriateType _ code details | .invalidArgument _ code details
  | .permissionDenied _ code details | .resourceExhausted _ code details
  | .noSuchThing _ code details | .alreadyExists _ code details => .ofCode code details
  | .otherError code details | .resourceBusy code details | .hardwareFault code details
  | .illegalOperation code details | .unsupportedOperation code details => .ofCode code details
  | e => .other (toString e)

/-- What comes of an action, a failure of the machine included. -/
def attempt {α : Type} (action : IO α) : IO (Except IoError α) := do
  match ← action.toBaseIO with
  | .ok a => return .ok a
  | .error e => return .error (.ofMachine e)

def machineFiles : FileAccess IO where
  read path := do
    match ← attempt (do (← IO.FS.Handle.mk path.text .read).readBinToEnd) with
    | .error e => return .error e
    | .ok content =>
      match Text.decode? content.toList with
      | some text => return .ok text
      | none => return .error .notText
  write path text := attempt (IO.FS.writeFile path.text text)

def runProgram (arguments : List String) : IO UInt32 := do
  let filter := Filter.ofSetting (← IO.getEnv "RUST_LOG")
  let outcome ← CommandLine.runArguments machineFiles (arguments.map Text.encode)
  IO.print outcome.printed
  IO.eprint (outcome.errorText filter)
  return outcome.exitCode.toUInt32

end ExampleTests

def main (arguments : List String) : IO UInt32 := ExampleTests.runProgram arguments

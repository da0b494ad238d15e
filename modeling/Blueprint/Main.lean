import Blueprint.Command.Run

/-!
# The command

Runs the command on the machine's own files.
-/
namespace Blueprint

def errorNumber (code : UInt32) : UInt32 :=
  if code < 0x80000000 then code else 0 - code

/-- The failure of an operation on files, with the system's own words where it is a rare one. -/
def FileError.ofError : IO.Error → FileError
  | .noFileOrDirectory .. => .missing
  | .alreadyExists .. => .alreadyExists
  | .inappropriateType _ code _ => if errorNumber code = 20 then .notFolder else .isFolder
  | .invalidArgument _ code details =>
    if errorNumber code = 36 then .nameTooLong else .other (ofNumber code details)
  | .permissionDenied _ code details | .resourceExhausted _ code details =>
    .other (ofNumber code details)
  | e => .other (toString e)
where
  ofNumber (code : UInt32) (details : String) : String :=
    details ++ " (os error " ++ toString (errorNumber code) ++ ")"

/-- Carries out an operation on the file of a path. -/
def attempt {α : Type} (path : String) (action : IO α) : IO (Except FileError α) := do
  if path.toList.contains (Char.ofNat 0) then return .error .zeroCharacter
  else match ← action.toBaseIO with
    | .ok a => return .ok a
    | .error e => return .error (.ofError e)

instance : FileAccess IO where
  read path := attempt path (IO.FS.readBinFile path)
  isFolder path :=
    return (← attempt path (discard (IO.FS.Handle.mk (path ++ "/.") .read))).toOption.isSome
  makeFolder path := attempt path (IO.FS.createDir path)
  write path content := attempt path (IO.FS.writeBinFile path content)

end Blueprint

def main (arguments : List String) : IO UInt32 := do
  let outcome ← (Blueprint.Command.run arguments : IO _)
  for notice in outcome.notices do
    IO.eprintln notice
  IO.print outcome.output
  return outcome.code.toUInt32

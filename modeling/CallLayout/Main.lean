import CallLayout.CommandLine

/-!
# The program

Reads the arguments and the state file, and writes what the command line answers.
-/

open CallLayout CommandLine

/-- The code that the system gives with an input error. It may come with either sign. -/
def systemCode? : IO.Error → Option Nat
  | .noFileOrDirectory _ code _ | .noSuchThing _ code _ | .permissionDenied _ code _
  | .inappropriateType _ code _ | .invalidArgument _ code _ =>
    some (min code.toNat (0 - code).toNat)
  | _ => none

/-- The reason that an input error gives. -/
def fileError (e : IO.Error) : FileError :=
  match systemCode? e with
  | some 2 => .notFound
  | some 6 => .noDevice
  | some 13 => .denied
  | some 20 => .notDirectory
  | some 21 => .isDirectory
  | some 36 => .nameTooLong
  | some 40 => .tooManyLinks
  | _ => .other (toString e)

/-- Reads a file as text. -/
def readTextFile (path : String) : IO (Except FileError String) :=
  try
    let bytes ← IO.FS.readBinFile path
    return match String.fromUTF8? bytes with
      | some text => .ok text
      | none => .error .notText
  catch e => return .error (fileError e)

/-- The contents of the state file that the arguments name, if they name one. -/
def stateContents (arguments : List String) : IO (Except FileError String) :=
  match Request.read arguments with
  | .ok (.layout { stateFile? := some path, .. }) => readTextFile path
  | _ => return .error .notFound

/-- Runs the program. -/
def main (arguments : List String) : IO UInt32 := do
  let contents ← stateContents arguments
  let outcome := run (fun _ => contents) arguments
  IO.print outcome.stdout
  IO.eprint outcome.stderr
  if outcome.code = 2 then IO.eprintln ""
  return outcome.code.toUInt32

import CallLayout.Abi
import CallLayout.Text.Line
import CallLayout.Text.Numeral
import CallLayout.Word

/-!
# Errors

What can be wrong with a request, as causes, and the text of each cause.
-/

namespace CallLayout

/-- What is wrong with one line of a machine state. -/
inductive LineError where
  /-- The line has no equals sign. -/
  | noAssignment
  /-- The part after the equals sign is no value. -/
  | invalidValue (text : String)
  /-- The name starts like a register, but no register number follows. -/
  | unknownRegister (name : String)
  /-- The register number is too large. -/
  | registerOutOfRange (index : Nat)
  /-- The name is neither the stack pointer nor a register. -/
  | unknownName (name : String)
  deriving DecidableEq, Repr

/-- What is wrong with a request. -/
inductive Error where
  /-- No reference convention has this name. -/
  | unknownAbi (name : String)
  /-- No guest call of the catalog has this name. -/
  | unknownCall (name : String)
  /-- A line of a machine state cannot be read; lines are numbered from one. -/
  | invalidState (line : Nat) (cause : LineError)
  /-- The machine has no register of this number. -/
  | registerOutOfRange (index : Nat)
  /-- The text is no value. -/
  | invalidValue (text : String)
  /-- A counter of a layout left the range of a word. -/
  | overflow (cause : Overflow)
  deriving DecidableEq, Repr

/-- The text for a register number that is too large. -/
def registerOutOfRangeMessage (index : Nat) : String :=
  "Register index " ++ Numeral.decimal index ++ " out of range"

/-- The text for a text that is no value. -/
def invalidValueMessage (text : String) : String :=
  "Invalid value '" ++ text ++ "', expected a decimal or 0x-prefixed hex number"

/-- The text of what is wrong with a line. -/
def LineError.message : LineError → String
  | .noAssignment => "expected 'name = value'"
  | .invalidValue text => invalidValueMessage text
  | .unknownRegister name => "unknown register '" ++ name ++ "'"
  | .registerOutOfRange index => registerOutOfRangeMessage index
  | .unknownName name => "unknown name '" ++ name ++ "', expected 'sp' or 'rN'"

/-- The text of what is wrong with a request. -/
def Error.message : Error → String
  | .unknownAbi name =>
    "Unknown ABI '" ++ name ++ "', expected one of: " ++ Text.join ", " (Abi.all.map Abi.name)
  | .unknownCall name => "Unknown guest call: " ++ name
  | .invalidState line cause =>
    "Invalid machine state at line " ++ Numeral.decimal line ++ ": " ++ cause.message
  | .registerOutOfRange index => registerOutOfRangeMessage index
  | .invalidValue text => invalidValueMessage text
  | .overflow cause => cause.message

end CallLayout

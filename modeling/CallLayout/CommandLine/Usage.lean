import CallLayout.Error
import CallLayout.Text.Terminal

/-!
# Options and usage errors

The options of the command line, and what can be wrong with its arguments before anything is
done. A usage error is told in one line.
-/

namespace CallLayout.CommandLine

/-- An option that takes a value. -/
inductive ValueOption where
  /-- The convention to place the call under. -/
  | abi
  /-- The file with the machine state. -/
  | state
  /-- The stack pointer. -/
  | stackPointer
  deriving DecidableEq, Repr

namespace ValueOption

/-- Every option that takes a value. -/
def all : List ValueOption :=
  [.abi, .state, .stackPointer]

/-- The name of an option, which stands after two hyphens. -/
def name : ValueOption → String
  | .abi => "abi"
  | .state => "state"
  | .stackPointer => "sp"

/-- The letter of an option, which stands after one hyphen, if it has one. -/
def letter? : ValueOption → Option Char
  | .abi => some 'a'
  | .state => some 's'
  | .stackPointer => none

/-- How an option is written in a message: its name and what stands for its value. -/
def label : ValueOption → String
  | .abi => "--abi <ABI>"
  | .state => "--state <STATE>"
  | .stackPointer => "--sp <SP>"

/-- The option of a name. -/
def ofName? (s : String) : Option ValueOption :=
  all.find? fun o => o.name = s

/-- The option of a letter. -/
def ofLetter? (c : Char) : Option ValueOption :=
  all.find? fun o => o.letter? = some c

end ValueOption

/-- What is wrong with the arguments of the command line. -/
inductive UsageError where
  /-- No command is given. -/
  | noCommand
  /-- There is no such command. -/
  | unknownCommand (name : String)
  /-- The argument has no place. -/
  | unexpectedArgument (text : String)
  /-- A value is given to an option that takes none. -/
  | unexpectedValue (value option : String)
  /-- An option is given more than once. -/
  | repeated (option : String)
  /-- An option has no value. -/
  | missingValue (option : ValueOption)
  /-- The value of an option cannot be read. -/
  | invalidValue (value : String) (option : ValueOption) (cause : Error)
  /-- The call or the convention is missing. -/
  | missingArguments
  deriving DecidableEq, Repr

/-- What the program is for. -/
def about : String :=
  "Inspect how guest calls are laid out across ABI registers and stack"

/-- The text of a usage error for a terminal, without what all of them share. What the user wrote
is in yellow, and names of options are in bold. -/
def UsageError.body : UsageError → String
  | .noCommand => about
  | .unknownCommand name => "unrecognized subcommand '" ++ Terminal.yellow name ++ "'"
  | .unexpectedArgument text => "unexpected argument '" ++ Terminal.yellow text ++ "' found"
  | .unexpectedValue value option =>
    "unexpected value '" ++ Terminal.yellow value ++ "' for '" ++ Terminal.bold option ++
      "' found; no more were expected"
  | .repeated option =>
    "the argument '" ++ Terminal.yellow option ++ "' cannot be used multiple times"
  | .missingValue option =>
    "a value is required for '" ++ Terminal.yellow option.label ++ "' but none was supplied"
  | .invalidValue value option cause =>
    "invalid value '" ++ Terminal.yellow value ++ "' for '" ++ Terminal.bold option.label ++
      "': " ++ cause.message
  | .missingArguments => "the following required arguments were not provided:"

/-- The text of a usage error for a terminal: that it is an error, what is wrong, and where to
find more. Without a command, the text is that of help. -/
def UsageError.text (e : UsageError) : String :=
  match e with
  | .noCommand => e.body ++ "\n"
  | e =>
    Terminal.boldRed "error:" ++ " " ++ e.body ++ "\n\nFor more information, try '" ++
      Terminal.bold "--help" ++ "'.\n"

/-- The line that tells a usage error: the first one that shows of its text. -/
def UsageError.line (e : UsageError) : String :=
  Text.firstLine (Terminal.visible e.text)

end CallLayout.CommandLine

import CallLayout.Catalog
import CallLayout.CommandLine.Usage
import CallLayout.Value

/-!
# Requests

What the arguments of the command line ask for. An option's value may be attached to it
(`--abi=X`, `-aX`, `-a=X`) or follow as the next argument. An attached value is read at once. One
that follows is read when the next known option, the call's name or the end of the arguments
comes, so an argument that has no place is reported before it. After `--` no argument is an
option.
-/

namespace CallLayout.CommandLine

/-- The form of an argument that may be an option. -/
inductive Shape where
  /-- The two hyphens after which no argument is an option. -/
  | terminator
  /-- A name after two hyphens, and what stands after the first equals sign. -/
  | long (name : String) (value? : Option String)
  /-- A letter after one hyphen, and what stands after it. -/
  | short (letter : Char) (rest : List Char)
  /-- Any other argument. -/
  | plain
  deriving DecidableEq, Repr

namespace Shape

/-- The form of what stands after two hyphens. -/
def ofLong (s : List Char) : Shape :=
  match Text.cut? '=' s with
  | some (name, value) => .long (String.ofList name) (some (String.ofList value))
  | none => .long (String.ofList s) none

/-- The form of an argument. -/
def of (argument : String) : Shape :=
  match argument.toList with
  | ['-', '-'] => .terminator
  | '-' :: '-' :: s => ofLong s
  | '-' :: c :: s => .short c s
  | _ => .plain

/-- The value attached to an option's letter. -/
def attached? : List Char → Option String
  | [] => none
  | '=' :: value => some (String.ofList value)
  | value => some (String.ofList value)

end Shape

/-- What help is about. -/
inductive Topic where
  /-- The program. -/
  | program
  /-- The command that lists what there is. -/
  | list
  /-- The command that shows a layout. -/
  | layout
  deriving DecidableEq, Repr

/-- The arguments of the command that shows a layout. -/
structure LayoutRequest where
  /-- The name of the guest call. -/
  call : String
  /-- The convention. -/
  abi : Abi
  /-- The file with the machine state, if there is one. -/
  stateFile? : Option String
  /-- The stack pointer, if it is given. -/
  stackPointer? : Option UInt64
  /-- The layout is shown as JSON. -/
  json : Bool
  deriving DecidableEq, Repr

/-- What the arguments ask for. -/
inductive Request where
  /-- List the conventions and the guest calls. -/
  | list
  /-- Show the layout of a guest call. -/
  | layout (request : LayoutRequest)
  /-- Show how the program is used. -/
  | help (topic : Topic)
  deriving DecidableEq, Repr

/-- What has been read of the arguments of the command that shows a layout. -/
structure Draft where
  /-- The name of the guest call. -/
  call? : Option String
  /-- The convention. -/
  abi? : Option Abi
  /-- The file with the machine state. -/
  stateFile? : Option String
  /-- The stack pointer. -/
  stackPointer? : Option UInt64
  /-- The layout is shown as JSON. -/
  json : Bool
  /-- The option that is not read yet, and its value if that has come. -/
  pending? : Option (ValueOption × Option String)
  deriving DecidableEq, Repr

namespace Draft

/-- Nothing has been read. -/
def empty : Draft :=
  { call? := none, abi? := none, stateFile? := none, stackPointer? := none, json := false
    pending? := none }

/-- The option has been read before. -/
def has (d : Draft) : ValueOption → Bool
  | .abi => d.abi?.isSome
  | .state => d.stateFile?.isSome
  | .stackPointer => d.stackPointer?.isSome

/-- Reads the value of an option that has not been read before. -/
def readValue (d : Draft) (option : ValueOption) (value : String) : Except UsageError Draft :=
  match option with
  | .abi =>
    match Abi.read value with
    | .ok abi => .ok { d with abi? := some abi }
    | .error cause => .error (.invalidValue value .abi cause)
  | .state =>
    if value = "" then .error (.missingValue .state) else .ok { d with stateFile? := some value }
  | .stackPointer =>
    match Value.read value with
    | .ok address => .ok { d with stackPointer? := some address }
    | .error cause => .error (.invalidValue value .stackPointer cause)

/-- Reads an option with its value. -/
def assign (d : Draft) (option : ValueOption) (value : String) : Except UsageError Draft :=
  if d.has option then .error (.repeated option.label) else d.readValue option value

/-- Reads the option that is not read yet, if there is one. -/
def settle (d : Draft) : Except UsageError Draft :=
  match d.pending? with
  | none => .ok d
  | some (option, none) => .error (.missingValue option)
  | some (option, some value) => { d with pending? := none }.assign option value

/-- Takes an option, whose value may be attached to it. -/
def takeOption (d : Draft) (option : ValueOption) (value? : Option String) :
    Except UsageError Draft := do
  let d ← d.settle
  match value? with
  | some value => d.assign option value
  | none => .ok { d with pending? := some (option, none) }

/-- Takes the option that asks for JSON. -/
def takeJson (d : Draft) : Except UsageError Draft := do
  let d ← d.settle
  if d.json then .error (.repeated "--json") else .ok { d with json := true }

/-- Takes an argument that is no option: the call's name. -/
def takeCall (d : Draft) (argument : String) : Except UsageError Draft :=
  if d.call?.isSome then .error (.unexpectedArgument argument)
  else do
    let d ← d.settle
    .ok { d with call? := some argument }

/-- Takes an argument that is no option: the value of the option before it, or the call's name. -/
def takePlain (d : Draft) (argument : String) : Except UsageError Draft :=
  match d.pending? with
  | some (option, none) => .ok { d with pending? := some (option, some argument) }
  | _ => d.takeCall argument

/-- The request, after the last argument. -/
def finish (d : Draft) : Except UsageError Request := do
  let d ← d.settle
  match d.call?, d.abi? with
  | some call, some abi =>
    .ok (.layout {
      call, abi, stateFile? := d.stateFile?, stackPointer? := d.stackPointer?, json := d.json })
  | _, _ => .error .missingArguments

/-- Help on the command, if what has been read up to here is right. -/
def help (d : Draft) : Except UsageError Request := do
  let _ ← d.settle
  .ok (.help .layout)

/-- Reads the remaining arguments, none of which is an option. -/
def readPlain (d : Draft) : List String → Except UsageError Request
  | [] => d.finish
  | argument :: rest => do
    let d ← d.takeCall argument
    d.readPlain rest

/-- Reads the remaining arguments. -/
def read (d : Draft) : List String → Except UsageError Request
  | [] => d.finish
  | argument :: rest =>
    match Shape.of argument with
    | .terminator => d.readPlain rest
    | .plain => do
      let d ← d.takePlain argument
      d.read rest
    | .long name value? =>
      match ValueOption.ofName? name with
      | some option => do
        let d ← d.takeOption option value?
        d.read rest
      | none =>
        if name = "json" ∨ name = "help" then
          match value? with
          | some value => .error (.unexpectedValue value ("--" ++ name))
          | none =>
            if name = "help" then d.help
            else do
              let d ← d.takeJson
              d.read rest
        else .error (.unexpectedArgument ("--" ++ name))
    | .short letter after =>
      match ValueOption.ofLetter? letter with
      | some option => do
        let d ← d.takeOption option (Shape.attached? after)
        d.read rest
      | none =>
        if letter = 'h' then d.help
        else .error (.unexpectedArgument (String.ofList ['-', letter]))

end Draft

namespace Request

/-- The error for an argument, or the request for help, of a command that has the help option
only. Any other argument is left to the command. -/
def readHelpOption (topic : Topic) : Shape → Option (Except UsageError Request)
  | .long name value? =>
    match value? with
    | some value =>
      if name = "help" then some (.error (.unexpectedValue value "--help"))
      else some (.error (.unexpectedArgument ("--" ++ name)))
    | none =>
      if name = "help" then some (.ok (.help topic))
      else some (.error (.unexpectedArgument ("--" ++ name)))
  | .short letter _ =>
    if letter = 'h' then some (.ok (.help topic))
    else some (.error (.unexpectedArgument (String.ofList ['-', letter])))
  | _ => none

/-- Reads the arguments of the command that lists what there is; it takes none. -/
def readList : List String → Except UsageError Request
  | [] => .ok .list
  | argument :: rest =>
    match readHelpOption .list (Shape.of argument) with
    | some request => request
    | none =>
      match Shape.of argument, rest with
      | .terminator, [] => .ok .list
      | .terminator, next :: _ => .error (.unexpectedArgument next)
      | _, _ => .error (.unexpectedArgument argument)

/-- Reads the arguments of the command that shows help: the name of a command, or none. -/
def readHelp : List String → Except UsageError Request
  | [] => .ok (.help .program)
  | [name] =>
    if name = "list" then .ok (.help .list)
    else if name = "layout" then .ok (.help .layout)
    else if name = "help" then .ok (.help .program)
    else .error (.unknownCommand name)
  | name :: next :: _ =>
    if name = "list" ∨ name = "layout" ∨ name = "help" then .error (.unknownCommand next)
    else .error (.unknownCommand name)

/-- The error for the arguments after `--`, none of which may be a command. -/
def afterTerminator : List String → UsageError
  | [] => .noCommand
  | name :: _ =>
    if name = "list" ∨ name = "layout" ∨ name = "help" then .unexpectedArgument name
    else .unknownCommand name

/-- What the arguments of the command line ask for. -/
def read : List String → Except UsageError Request
  | [] => .error .noCommand
  | "list" :: rest => readList rest
  | "layout" :: rest => Draft.empty.read rest
  | "help" :: rest => readHelp rest
  | argument :: rest =>
    match readHelpOption .program (Shape.of argument) with
    | some request => request
    | none =>
      match Shape.of argument with
      | .terminator => .error (afterTerminator rest)
      | _ => .error (.unknownCommand argument)

end Request

end CallLayout.CommandLine

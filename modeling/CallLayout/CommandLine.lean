import CallLayout.CommandLine.FileError
import CallLayout.CommandLine.Request
import CallLayout.Machine.Reader
import CallLayout.Report.Display
import CallLayout.Report.Json

/-!
# The command line

What the program writes and the code it ends with, as a function of its arguments and of the
files it may read. The arguments are read first; then the guest call is looked up, the state file
is read, its text is taken for a machine state, and the call is laid out. The first of these that
fails decides the message.
-/

namespace CallLayout.CommandLine

/-- What the program writes and the code it ends with. -/
structure Outcome where
  /-- The code: zero for success. -/
  code : Nat
  /-- What is written as output. -/
  stdout : String
  /-- What is written as error messages. -/
  stderr : String
  deriving DecidableEq, Repr

/-- Why a request that was understood failed. -/
structure Failure where
  /-- What failed. -/
  message : String
  /-- Why, if there is more to say. -/
  cause? : Option String
  deriving DecidableEq, Repr

/-- The text of a failure, with the cause in a paragraph of its own. -/
def Failure.text (f : Failure) : String :=
  match f.cause? with
  | none => "Error: " ++ f.message ++ "\n"
  | some cause => "Error: " ++ f.message ++ "\n\nCaused by:\n    " ++ cause ++ "\n"

/-- The conventions and the guest calls there are. -/
def listing : String :=
  "ABIs:\n" ++ String.join (Abi.all.map fun abi => "  " ++ abi.name ++ "\n") ++
    "Calls:\n" ++ String.join (Catalog.calls.map fun call =>
      "  " ++ Text.padEnd 10 call.name ++ " " ++ call.summary ++ "\n")

/-- How the program is used. -/
def helpText : Topic → String
  | .program =>
    about ++ "\n\nUsage: guest-abi <COMMAND>\n\nCommands:\n" ++
      "  list    List the available ABIs and guest calls\n" ++
      "  layout  Show the layout of one guest call\n" ++
      "  help    Print this message or the help of the given subcommand(s)\n\n" ++
      "Options:\n  -h, --help  Print help\n"
  | .list =>
    "List the available ABIs and guest calls\n\nUsage: guest-abi list\n\n" ++
      "Options:\n  -h, --help  Print help\n"
  | .layout =>
    "Show the layout of one guest call\n\n" ++
      "Usage: guest-abi layout [OPTIONS] --abi <ABI> <CALL>\n\n" ++
      "Arguments:\n  <CALL>  Guest call name (see `guest-abi list`)\n\n" ++
      "Options:\n" ++
      "  -a, --abi <ABI>      ABI to lay the call out under\n" ++
      "  -s, --state <STATE>  Machine state file with 'sp = ADDR' and 'rN = VALUE' lines\n" ++
      "      --sp <SP>        Stack pointer, overrides the state file\n" ++
      "      --json           Print the layout as JSON\n" ++
      "  -h, --help           Print help\n"

/-- The text of the state file of a request, if it names one. -/
def readState (files : String → Except FileError String) (r : LayoutRequest) :
    Except Failure (Option String) :=
  match r.stateFile? with
  | none => .ok none
  | some path =>
    match files path with
    | .ok text => .ok (some text)
    | .error e => .error ⟨"Failed to read " ++ path, some e.message⟩

/-- The machine that a request describes, given the text of its state file. -/
def machineOf (r : LayoutRequest) (text? : Option String) : Except Failure Machine :=
  (Machine.ofSources text? r.stackPointer?).mapError fun e =>
    ⟨"Failed to parse " ++ r.stateFile?.getD "machine state", some e.message⟩

/-- The report that a request asks for. -/
def report (files : String → Except FileError String) (r : LayoutRequest) :
    Except Failure Report :=
  match Catalog.find? r.call with
  | none =>
    .error ⟨"unknown guest call '" ++ r.call ++ "', run `guest-abi list` for the catalog", none⟩
  | some _ => do
    let text? ← readState files r
    let m ← machineOf r text?
    (Catalog.describe r.abi r.call m).mapError fun e =>
      ⟨"Failed to lay out " ++ r.call ++ " under " ++ r.abi.name, some e.message⟩

/-- A report as it is asked for. -/
def render (json : Bool) (r : Report) : String :=
  (if json then r.json.pretty else r.display) ++ "\n"

/-- What the program does for a request. -/
def answer (files : String → Except FileError String) : Request → Outcome
  | .list => { code := 0, stdout := listing, stderr := "" }
  | .help topic => { code := 0, stdout := helpText topic, stderr := "" }
  | .layout r =>
    match report files r with
    | .ok report => { code := 0, stdout := render r.json report, stderr := "" }
    | .error failure => { code := 1, stdout := "", stderr := failure.text }

/-- What the program does for its arguments. -/
def run (files : String → Except FileError String) (arguments : List String) : Outcome :=
  match Request.read arguments with
  | .ok request => answer files request
  | .error e => { code := 2, stdout := "", stderr := e.line }

end CallLayout.CommandLine

import CallLayout.Machine
import CallLayout.Value

/-!
# Reading machine states

A machine state is written as lines `sp = VALUE` and `rN = VALUE`. Blank lines and lines that
start with `#` are skipped but counted. Each line is read on its own into an assignment, the
assignments are carried out in order on the zero machine, and the first line that cannot be read
decides the error.
-/

namespace CallLayout.Machine

/-- What a line assigns to. -/
inductive Target where
  /-- The stack pointer. -/
  | stackPointer
  /-- A general register. -/
  | register (index : Fin registerCount)
  deriving DecidableEq, Repr

/-- A line's target and the value it gets. -/
structure Assignment where
  /-- What is assigned to. -/
  target : Target
  /-- The value assigned. -/
  value : UInt64
  deriving DecidableEq, Repr

/-- Carries out an assignment. -/
def assign (m : Machine) (a : Assignment) : Machine :=
  match a.target with
  | .stackPointer => m.setStackPointer a.value
  | .register index => m.setRegister index a.value

/-- The target that a name stands for. A register's number is a decimal numeral of one word. -/
def readTarget (name : List Char) : Except LineError Target :=
  match name with
  | ['s', 'p'] => .ok .stackPointer
  | 'r' :: number =>
    match Numeral.word? 10 number with
    | none => .error (.unknownRegister (String.ofList name))
    | some index =>
      if h : index.toNat < registerCount then .ok (.register ⟨index.toNat, h⟩)
      else .error (.registerOutOfRange index.toNat)
  | _ => .error (.unknownName (String.ofList name))

/-- The value that the part after an equals sign stands for. -/
def readValue (text : List Char) : Except LineError UInt64 :=
  match Value.ofChars? text with
  | some value => .ok value
  | none => .error (.invalidValue (String.ofList (Text.trim text)))

/-- Reads an assignment. The value, after the first equals sign, is read before the name. -/
def readAssignment (line : List Char) : Except LineError Assignment :=
  match Text.cut? '=' line with
  | none => .error .noAssignment
  | some (name, text) => do
    let value ← readValue text
    let target ← readTarget (Text.trim name)
    .ok ⟨target, value⟩

/-- A line, blanks around it taken off, that assigns nothing: empty, or a comment. -/
def isSkipped : List Char → Bool
  | [] => true
  | c :: _ => c = '#'

/-- Reads a line; a blank line and a comment assign nothing. -/
def readLine (line : List Char) : Except LineError (Option Assignment) :=
  if isSkipped (Text.trim line) then .ok none
  else (readAssignment (Text.trim line)).map some

/-- Reads lines, the first of which has the given number, into their assignments. -/
def readLines : Nat → List (List Char) → Except Error (List Assignment)
  | _, [] => .ok []
  | number, line :: rest =>
    match readLine line with
    | .error cause => .error (.invalidState number cause)
    | .ok assignment? => do
      let assignments ← readLines (number + 1) rest
      .ok (assignment?.toList ++ assignments)

/-- Reads a machine state. What no line assigns is zero, and a later line wins over an earlier
one. -/
def read (text : String) : Except Error Machine := do
  let assignments ← readLines 1 (Text.lines text.toList)
  .ok (assignments.foldl assign zero)

/-- The machine that a state text, if there is one, describes, and in which a given stack pointer
replaces the text's one. -/
def ofSources (text? : Option String) (stackPointer? : Option UInt64) : Except Error Machine := do
  let m ← match text? with
    | some text => read text
    | none => .ok zero
  match stackPointer? with
  | some value => .ok (m.setStackPointer value)
  | none => .ok m

end CallLayout.Machine

import CallLayout.Machine
import CallLayout.Signature

/-!
# Calling conventions

A calling convention places the values of a guest call one after the other: the result first,
because a result returned in memory takes an argument slot for its address, then the arguments
from left to right. What has been handed out so far is the convention's *position*. A convention
says where a position starts, and how one value of one type moves it; everything else is the same
for all conventions.

Only the start of a position may look at the stack pointer. Placing a value may look at the
general registers.
-/

namespace CallLayout

/-- The part that a value plays in a call. -/
inductive Role where
  /-- The value that the call returns. -/
  | result
  /-- A value that the call takes. -/
  | argument
  deriving DecidableEq, Repr

/-- The name of a role. -/
def Role.name : Role → String
  | .result => "result"
  | .argument => "argument"

/-- One step of placing a call. -/
inductive Step where
  /-- The result is placed. -/
  | result
  /-- The argument of the given number, counted from zero, is placed. -/
  | argument (index : Nat)
  deriving DecidableEq, Repr

namespace Step

/-- The role of the value that a step places. -/
def role : Step → Role
  | .result => .result
  | .argument _ => .argument

/-- The number of the argument that a step places. -/
def index? : Step → Option Nat
  | .result => none
  | .argument index => some index

end Step

/-- Where positions start. -/
inductive Seed (P : Type) where
  /-- Every position starts alike. -/
  | fixed (position : P)
  /-- A position starts where the stack pointer says. -/
  | ofStackPointer (position : UInt64 → P)

namespace Seed

variable {P : Type}

/-- The position that a seed gives on a machine. -/
def start : Seed P → Machine → P
  | .fixed position, _ => position
  | .ofStackPointer position, m => position m.stackPointer

/-- How often the seed reads the stack pointer when it gives a position. -/
def reads : Seed P → Nat
  | .fixed _ => 0
  | .ofStackPointer _ => 1

end Seed

/-- A calling convention with positions in `P`, for results of types in `R` and arguments of
types in `A`. -/
structure Convention (P R A : Type) where
  /-- The convention's name. -/
  name : String
  /-- The names of the registers that hold arguments, as far as they have names. -/
  registerNames : List String
  /-- Where positions start. -/
  seed : Seed P
  /-- The position after a result. -/
  result : Registers → R → P → Except Overflow P
  /-- The position after an argument. -/
  argument : Registers → A → P → Except Overflow P
  /-- The text of a position. -/
  positionText : P → String

/-- A calling convention whose positions tell how much has been handed out. -/
structure MeteredConvention (P R A : Type) extends Convention P R A where
  /-- The number of argument registers handed out. -/
  registersUsed : P → UInt64
  /-- The number of stack bytes handed out. -/
  stackUsed : P → UInt64

namespace Convention

variable {P R A : Type} (c : Convention P R A)

/-- The position before anything is placed. -/
def start (m : Machine) : P :=
  c.seed.start m

/-- The name of an argument register, if it has one. -/
def registerName? (index : Nat) : Option String :=
  c.registerNames[index]?

/-- The position after some arguments, placed from left to right. -/
def placeArguments (registers : Registers) (types : List A) (p : P) : Except Overflow P :=
  types.foldlM (fun p type => c.argument registers type p) p

/-- The position after a call: its result, then its arguments. -/
def placeCall (registers : Registers) (s : Signature R A) (p : P) : Except Overflow P := do
  let p ← c.result registers s.result p
  c.placeArguments registers s.arguments p

end Convention

end CallLayout

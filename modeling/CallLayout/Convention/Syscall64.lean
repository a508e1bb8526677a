import CallLayout.Abi
import CallLayout.Convention
import CallLayout.Text.Record

/-!
# The 64-bit system call convention

Arguments go to six named registers: a scalar takes one, an aggregate one for each eight bytes.
The result comes back in a register of its own and takes none of them. There is no stack; a call
with too many arguments goes on counting past the sixth register.
-/

namespace CallLayout

namespace Syscall64

/-- The argument registers, in order. -/
def registerNames : List String :=
  ["rdi", "rsi", "rdx", "r10", "r8", "r9"]

/-- The size of an argument register in bytes. -/
def registerSize : UInt64 := 8

/-- How many registers have been handed out. -/
structure Position where
  /-- The number of the next register. -/
  next : UInt64
  deriving DecidableEq, Repr

namespace Position

/-- Nothing is handed out. -/
def start : Position :=
  { next := 0 }

/-- More registers were handed out than there are. -/
def overflowed (p : Position) : Bool :=
  registerNames.length < p.next.toNat

/-- Hands out some registers. -/
def take (p : Position) (count : UInt64) : Except Overflow Position := do
  let next ← Word.add p.next count
  .ok ⟨next⟩

/-- The text of a position. -/
def text (p : Position) : String :=
  Text.record "Syscall64Position" [("next", Numeral.ofWord p.next)]

end Position

/-- The number of registers that an argument takes. -/
def registersFor : ValueType → UInt64
  | .scalar _ => 1
  | .blob size => Word.unitsFor size registerSize

/-- The position after an argument. -/
def placeArgument (type : ValueType) (p : Position) : Except Overflow Position :=
  p.take (registersFor type)

end Syscall64

/-- The 64-bit system call convention. -/
def syscall64 : MeteredConvention Syscall64.Position ResultType ValueType where
  name := Abi.syscall64.name
  registerNames := Syscall64.registerNames
  seed := .fixed .start
  result := fun _ _ p => .ok p
  argument := fun _ type p => Syscall64.placeArgument type p
  positionText := Syscall64.Position.text
  registersUsed := fun p => p.next
  stackUsed := fun _ => 0

end CallLayout

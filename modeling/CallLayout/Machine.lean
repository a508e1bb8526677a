import CallLayout.Error

/-!
# Machine states

The simulated machine that a layout starts from: a stack pointer and thirty-two general
registers, all of them 64-bit words.
-/

namespace CallLayout

/-- The number of general registers. -/
def registerCount : Nat := 32

/-- The general registers. -/
abbrev Registers := Vector UInt64 registerCount

/-- The state of a simulated machine. -/
structure Machine where
  /-- The general registers. -/
  registers : Registers
  /-- The stack pointer. -/
  stackPointer : UInt64
  deriving DecidableEq, Repr

namespace Machine

/-- The machine with every register and the stack pointer at zero. -/
def zero : Machine :=
  { registers := Vector.replicate registerCount 0, stackPointer := 0 }

/-- The machine with another stack pointer. -/
def setStackPointer (m : Machine) (value : UInt64) : Machine :=
  { m with stackPointer := value }

/-- The value of a general register, if the machine has it. -/
def register? (m : Machine) (index : Nat) : Option UInt64 :=
  m.registers[index]?

/-- The machine with another value in one general register. -/
def setRegister (m : Machine) (index : Fin registerCount) (value : UInt64) : Machine :=
  { m with registers := m.registers.set index value }

/-- The machine with another value in the register of a given number, if the machine has it. -/
def setRegister? (m : Machine) (index : Nat) (value : UInt64) : Except Error Machine :=
  if h : index < registerCount then .ok (m.setRegister ⟨index, h⟩ value)
  else .error (.registerOutOfRange index)

end Machine

end CallLayout

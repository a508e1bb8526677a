import CallLayout.Convention
import CallLayout.Convention.Signed
import CallLayout.Text.Record

/-!
# The stack demonstration convention

Values are stacked upwards from the stack pointer without gaps. The offset is checked: a value
that would end beyond the last address is an overflow.
-/

namespace CallLayout

namespace Stack

/-- The type of a result. -/
inductive Result where
  /-- The call returns nothing. -/
  | unit
  /-- A signed 64-bit number. -/
  | i64
  deriving DecidableEq, Repr

namespace Result

/-- Every result type. -/
def all : List Result :=
  [.unit, .i64]

/-- The written form of a result type. -/
def name : Result → String
  | .unit => unitText
  | .i64 => "i64"

/-- The size of a result in bytes. -/
def size : Result → UInt64
  | .unit => 0
  | .i64 => 8

end Result

instance : GuestType Result :=
  GuestType.ofNames Result.all Result.name

/-- The end of what has been stacked. -/
structure Position where
  /-- The address of the next value. -/
  offset : UInt64
  deriving DecidableEq, Repr

namespace Position

/-- Nothing is stacked. -/
def start (stackPointer : UInt64) : Position :=
  { offset := stackPointer }

/-- Stacks a number of bytes. -/
def push (p : Position) (size : UInt64) : Except Overflow Position := do
  let offset ← Word.add p.offset size
  .ok ⟨offset⟩

/-- The text of a position. -/
def text (p : Position) : String :=
  Text.record "StackCursor" [("offset", Numeral.ofWord p.offset)]

end Position

end Stack

/-- The stack demonstration convention. -/
def stack : Convention Stack.Position Stack.Result Signed where
  name := "stack"
  registerNames := []
  seed := .ofStackPointer .start
  result := fun _ type p => p.push type.size
  argument := fun _ type p => p.push type.size
  positionText := Stack.Position.text

end CallLayout

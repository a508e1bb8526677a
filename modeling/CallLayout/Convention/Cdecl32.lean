import CallLayout.Abi
import CallLayout.Convention
import CallLayout.Text.Record

/-!
# The 32-bit stack-only C convention

The return address lies at the stack pointer and the arguments above it, each in its size rounded
up to a slot of four bytes. An aggregate larger than two words is returned in memory, and its
address takes a slot in front of the arguments.
-/

namespace CallLayout

namespace Cdecl32

/-- The size of the return address in bytes. -/
def returnAddressSize : UInt64 := 4

/-- The size of a stack slot in bytes. -/
def slotSize : UInt64 := 4

/-- The size of the largest aggregate that is returned in registers. -/
def registerResultLimit : UInt64 := 8

/-- What has been handed out of the stack. -/
structure Position where
  /-- The address of the first argument. -/
  base : UInt64
  /-- The address of the next argument. -/
  next : UInt64
  deriving DecidableEq, Repr

namespace Position

/-- Nothing is handed out; the arguments start above the return address. -/
def start (stackPointer : UInt64) : Position :=
  { base := stackPointer + returnAddressSize, next := stackPointer + returnAddressSize }

/-- Hands out as many slots as hold a number of bytes. -/
def push (p : Position) (size : UInt64) : Position :=
  { p with next := p.next + Word.alignUp size slotSize }

/-- The text of a position. -/
def text (p : Position) : String :=
  Text.record "Cdecl32Position" [("base", Numeral.ofWord p.base), ("next", Numeral.ofWord p.next)]

end Position

/-- The size of an argument in bytes. -/
def sizeOf : ValueType → UInt64
  | .scalar .u8 => 1
  | .scalar .u16 => 2
  | .scalar .u32 | .scalar .i32 | .scalar .guestPtr => 4
  | .scalar .u64 | .scalar .i64 => 8
  | .blob size => size

/-- The position after a result: the address of one returned in memory takes a slot. -/
def placeResult (type : ResultType) (p : Position) : Position :=
  match type with
  | .value (.blob size) => if registerResultLimit < size then p.push slotSize else p
  | _ => p

/-- The position after an argument. -/
def placeArgument (type : ValueType) (p : Position) : Position :=
  p.push (sizeOf type)

end Cdecl32

/-- The 32-bit stack-only C convention. -/
def cdecl32 : MeteredConvention Cdecl32.Position ResultType ValueType where
  name := Abi.cdecl32.name
  registerNames := []
  seed := .ofStackPointer .start
  result := fun _ type p => .ok (Cdecl32.placeResult type p)
  argument := fun _ type p => .ok (Cdecl32.placeArgument type p)
  positionText := Cdecl32.Position.text
  registersUsed := fun _ => 0
  stackUsed := fun p => p.next - p.base

end CallLayout

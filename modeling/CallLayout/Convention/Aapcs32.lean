import CallLayout.Abi
import CallLayout.Convention
import CallLayout.Text.Record

/-!
# The 32-bit Arm procedure call convention

Arguments go to the four core registers and then to the stack, which starts at the stack pointer
rounded up to a word. A position holds the number of the next core register and the address of
the next stacked argument.

A scalar of one word takes one register or one word of stack. A 64-bit scalar takes a pair of
registers that starts at an even one; if none is left, the remaining registers are given up and
the scalar goes to an address that is a multiple of eight. An aggregate is split between the
remaining registers and the stack, as long as nothing is stacked. An aggregate larger than a word
is returned in memory, and its address takes a place in front of the arguments.
-/

namespace CallLayout

namespace Aapcs32

/-- The core argument registers, in order. -/
def registerNames : List String :=
  ["r0", "r1", "r2", "r3"]

/-- The number of core argument registers. -/
def registerLimit : UInt64 := 4

/-- The size and the alignment of a word in bytes. -/
def wordSize : UInt64 := 4

/-- The size and the alignment of a stacked 64-bit scalar in bytes. -/
def doubleWordSize : UInt64 := 8

/-- The size of the largest aggregate that is returned in a register. -/
def registerResultLimit : UInt64 := 4

/-- What has been handed out of the registers and of the stack. -/
structure Position where
  /-- The number of the next core register. -/
  nextRegister : UInt64
  /-- The address of the next stacked argument. -/
  nextStacked : UInt64
  /-- The address of the first stacked argument. -/
  stackBase : UInt64
  deriving DecidableEq, Repr

namespace Position

/-- Nothing is handed out; the stack starts at the stack pointer rounded up to a word. -/
def start (stackPointer : UInt64) : Position :=
  let base := Word.alignUp stackPointer wordSize
  { nextRegister := 0, nextStacked := base, stackBase := base }

/-- Hands out a register, or else a word of stack. -/
def takeWord (p : Position) : Except Overflow Position :=
  if p.nextRegister < registerLimit then do
    let nextRegister ← Word.add p.nextRegister 1
    .ok { p with nextRegister }
  else
    .ok { p with nextStacked := Word.alignUp p.nextStacked wordSize + wordSize }

/-- Hands out a pair of registers that starts at an even one, or else eight aligned bytes of
stack; the registers that are left are then given up. -/
def takeDoubleWord (p : Position) : Except Overflow Position := do
  let first ← Word.nextMultiple p.nextRegister 2
  let next ← Word.add first 2
  if next ≤ registerLimit then
    .ok { p with nextRegister := next }
  else
    .ok { p with
      nextRegister := registerLimit
      nextStacked := Word.alignUp p.nextStacked doubleWordSize + doubleWordSize }

/-- Hands out a number of words: as many registers as are left and the rest of the stack, if
nothing is stacked, and else stack only; the registers that are left are then given up. -/
def takeWords (p : Position) (words : UInt64) : Except Overflow Position :=
  if words = 0 then .ok p
  else if p.nextRegister < registerLimit ∧ p.nextStacked = p.stackBase then do
    let free ← Word.sub registerLimit p.nextRegister
    let inRegisters := min words free
    let nextRegister ← Word.add p.nextRegister inRegisters
    let stacked ← Word.sub words inRegisters
    .ok { p with nextRegister, nextStacked := p.nextStacked + stacked * wordSize }
  else
    .ok { p with
      nextRegister := registerLimit
      nextStacked := Word.alignUp p.nextStacked wordSize + words * wordSize }

/-- The text of a position. -/
def text (p : Position) : String :=
  Text.record "Aapcs32Position" [("ncrn", Numeral.ofWord p.nextRegister),
    ("nsaa", Numeral.ofWord p.nextStacked), ("stack_base", Numeral.ofWord p.stackBase)]

end Position

/-- The position after a result: the address of one returned in memory takes a word. -/
def placeResult (type : ResultType) (p : Position) : Except Overflow Position :=
  match type with
  | .value (.blob size) => if registerResultLimit < size then p.takeWord else .ok p
  | _ => .ok p

/-- The position after an argument. -/
def placeArgument (type : ValueType) (p : Position) : Except Overflow Position :=
  match type with
  | .scalar .u64 | .scalar .i64 => p.takeDoubleWord
  | .scalar _ => p.takeWord
  | .blob size => p.takeWords (Word.unitsFor size wordSize)

end Aapcs32

/-- The 32-bit Arm procedure call convention. -/
def aapcs32 : MeteredConvention Aapcs32.Position ResultType ValueType where
  name := Abi.aapcs32.name
  registerNames := Aapcs32.registerNames
  seed := .ofStackPointer .start
  result := fun _ type p => Aapcs32.placeResult type p
  argument := fun _ type p => Aapcs32.placeArgument type p
  positionText := Aapcs32.Position.text
  registersUsed := fun p => p.nextRegister
  stackUsed := fun p => p.nextStacked - p.stackBase

end CallLayout

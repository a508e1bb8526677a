import CallLayout.Convention
import CallLayout.Convention.Signed
import CallLayout.Text.Record

/-!
# The frame demonstration convention

Arguments lie in a frame whose address is in a general register. A 64-bit argument goes to an
address that is a multiple of eight, so where it goes in the frame depends on where the frame
lies. Results take no place.
-/

namespace CallLayout

namespace Frame

/-- The general register that holds the address of the frame. -/
def frameRegister : Fin registerCount := ⟨11, by decide⟩

/-- The alignment of a 64-bit argument in bytes. -/
def doubleWordSize : UInt64 := 8

/-- The type of a result. -/
inductive Result where
  /-- The call returns nothing. -/
  | unit
  /-- A signed 32-bit number. -/
  | i32
  deriving DecidableEq, Repr

namespace Result

/-- Every result type. -/
def all : List Result :=
  [.unit, .i32]

/-- The written form of a result type. -/
def name : Result → String
  | .unit => unitText
  | .i32 => "i32"

end Result

instance : GuestType Result :=
  GuestType.ofNames Result.all Result.name

/-- The end of what lies in the frame. -/
structure Position where
  /-- The distance from the frame's address to the next argument. -/
  offset : UInt64
  deriving DecidableEq, Repr

namespace Position

/-- Nothing lies in the frame. -/
def start : Position :=
  { offset := 0 }

/-- Puts a number of bytes into the frame. -/
def push (p : Position) (size : UInt64) : Except Overflow Position := do
  let offset ← Word.add p.offset size
  .ok ⟨offset⟩

/-- Puts a 64-bit number at an aligned address of the frame at the given address. -/
def pushDoubleWord (p : Position) (frame : UInt64) : Position :=
  { offset := Word.alignUp (frame + p.offset) doubleWordSize - frame + doubleWordSize }

/-- The text of a position. -/
def text (p : Position) : String :=
  Text.record "FrameCursor" [("offset", Numeral.ofWord p.offset)]

end Position

/-- The position after an argument. -/
def placeArgument (registers : Registers) (type : Signed) (p : Position) :
    Except Overflow Position :=
  match type with
  | .i32 => p.push Signed.i32.size
  | .i64 => .ok (p.pushDoubleWord (registers.get frameRegister))

end Frame

/-- The frame demonstration convention. -/
def frame : Convention Frame.Position Frame.Result Signed where
  name := "frame"
  registerNames := []
  seed := .fixed .start
  result := fun _ _ p => .ok p
  argument := Frame.placeArgument
  positionText := Frame.Position.text

end CallLayout

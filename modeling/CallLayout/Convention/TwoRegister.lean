import CallLayout.Convention
import CallLayout.Text.Record

/-!
# The two-register demonstration convention

Every argument takes one register of an endless row and its number is written down. A wide result
takes two registers that hold no argument; other results take none. The machine plays no part.
-/

namespace CallLayout

namespace TwoRegister

/-- The number of registers that the convention is named for. -/
def registerPair : Nat := 2

/-- The number of registers that a wide result takes. -/
def wideResultRegisters : UInt64 := 2

/-- The type of a value. -/
inductive Value where
  /-- A signed 32-bit number. -/
  | i32
  /-- A signed 64-bit number. -/
  | i64
  /-- A value of two registers. -/
  | wide
  deriving DecidableEq, Repr

namespace Value

/-- Every value type. -/
def all : List Value :=
  [.i32, .i64, .wide]

/-- The written form of a value type. -/
def name : Value → String
  | .i32 => "i32"
  | .i64 => "i64"
  | .wide => "Wide"

end Value

instance : GuestType Value :=
  GuestType.ofNames Value.all Value.name

/-- The registers handed out, and what the arguments got. -/
structure Position where
  /-- The number of registers handed out. -/
  used : UInt64
  /-- The arguments placed, in order, with their registers. -/
  assigned : List (Value × UInt64)
  deriving DecidableEq, Repr

namespace Position

/-- Nothing is handed out. -/
def start : Position :=
  { used := 0, assigned := [] }

/-- Hands out a register to an argument. -/
def take (p : Position) (type : Value) : Except Overflow Position := do
  let used ← Word.add p.used 1
  .ok { used, assigned := p.assigned ++ [(type, p.used)] }

/-- Hands out registers that hold no argument. -/
def skip (p : Position) (count : UInt64) : Except Overflow Position := do
  let used ← Word.add p.used count
  .ok { p with used }

/-- The text of an argument and its register. -/
def assignedText (a : Value × UInt64) : String :=
  "(\"" ++ a.1.name ++ "\", " ++ Numeral.ofWord a.2 ++ ")"

/-- The text of a position. -/
def text (p : Position) : String :=
  Text.record "RegisterCursor" [("used", Numeral.ofWord p.used),
    ("assigned", "[" ++ Text.join ", " (p.assigned.map assignedText) ++ "]")]

end Position

/-- The position after a result. -/
def placeResult (type : Returned Value) (p : Position) : Except Overflow Position :=
  match type with
  | .value .wide => p.skip wideResultRegisters
  | _ => .ok p

end TwoRegister

/-- The two-register demonstration convention. -/
def twoRegister :
    Convention TwoRegister.Position (Returned TwoRegister.Value) TwoRegister.Value where
  name := "two-register"
  registerNames := []
  seed := .fixed .start
  result := fun _ type p => TwoRegister.placeResult type p
  argument := fun _ type p => p.take type
  positionText := TwoRegister.Position.text

end CallLayout

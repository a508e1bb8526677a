import CallLayout.GuestType

/-!
# Signed numbers

The value types of the demonstration conventions that only know signed numbers.
-/

namespace CallLayout

/-- The type of a signed number. -/
inductive Signed where
  /-- A signed 32-bit number. -/
  | i32
  /-- A signed 64-bit number. -/
  | i64
  deriving DecidableEq, Repr

namespace Signed

/-- Every signed type. -/
def all : List Signed :=
  [.i32, .i64]

/-- The written form of a signed type. -/
def name : Signed → String
  | .i32 => "i32"
  | .i64 => "i64"

/-- The size of a signed number in bytes. -/
def size : Signed → UInt64
  | .i32 => 4
  | .i64 => 8

end Signed

instance : GuestType Signed :=
  GuestType.ofNames Signed.all Signed.name

end CallLayout

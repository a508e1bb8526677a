import CallLayout.Text.Line
import CallLayout.Text.Numeral

/-!
# Guest types

The types of the values that a guest call takes and returns, with their written forms. A
convention that is not among the reference ones may have value types of its own; `GuestType` is
what they all share.
-/

namespace CallLayout

/-- A family of types that have a written form. -/
class GuestType (α : Type) where
  /-- The written form of a type. -/
  text : α → String
  /-- The type of a written form. -/
  ofText? : String → Option α

/-- The types of a finite list, each written as its name. -/
abbrev GuestType.ofNames {α : Type} (all : List α) (name : α → String) : GuestType α where
  text := name
  ofText? s := all.find? fun t => name t = s

/-- A type that fits one or two machine words. -/
inductive Scalar where
  /-- An unsigned byte. -/
  | u8
  /-- An unsigned 16-bit number. -/
  | u16
  /-- An unsigned 32-bit number. -/
  | u32
  /-- A signed 32-bit number. -/
  | i32
  /-- An unsigned 64-bit number. -/
  | u64
  /-- A signed 64-bit number. -/
  | i64
  /-- An address in the guest. -/
  | guestPtr
  deriving DecidableEq, Repr

namespace Scalar

/-- Every scalar. -/
def all : List Scalar :=
  [.u8, .u16, .u32, .i32, .u64, .i64, .guestPtr]

/-- The written form of a scalar. -/
def name : Scalar → String
  | .u8 => "u8"
  | .u16 => "u16"
  | .u32 => "u32"
  | .i32 => "i32"
  | .u64 => "u64"
  | .i64 => "i64"
  | .guestPtr => "GuestPtr"

end Scalar

instance : GuestType Scalar :=
  GuestType.ofNames Scalar.all Scalar.name

/-- The type of a value that a guest call takes. -/
inductive ValueType where
  /-- A scalar. -/
  | scalar (type : Scalar)
  /-- An aggregate of a number of bytes. -/
  | blob (size : UInt64)
  deriving DecidableEq, Repr

namespace ValueType

/-- The written form of a value type. -/
def text : ValueType → String
  | .scalar s => s.name
  | .blob size => "Blob<" ++ Numeral.ofWord size ++ ">"

/-- The aggregate of a written form. -/
def blobOfText? (s : String) : Option ValueType := do
  let inner ← Text.dropBeginning? "Blob<".toList s.toList
  match Text.cut? '>' inner with
  | some (size, []) => (Numeral.word? 10 size).map blob
  | _ => none

/-- The value type of a written form. -/
def ofText? (s : String) : Option ValueType :=
  match (GuestType.ofText? s : Option Scalar) with
  | some t => some (.scalar t)
  | none => blobOfText? s

end ValueType

instance : GuestType ValueType where
  text := ValueType.text
  ofText? := ValueType.ofText?

/-- What a guest call returns, if its values have types in `α`. -/
inductive Returned (α : Type) where
  /-- The call returns nothing. -/
  | unit
  /-- The call returns a value. -/
  | value (type : α)
  deriving DecidableEq, Repr

/-- The written form of the type without a value. -/
def unitText : String := "()"

instance {α : Type} [GuestType α] : GuestType (Returned α) where
  text
    | .unit => unitText
    | .value t => GuestType.text t
  ofText? s := if s = unitText then some .unit else (GuestType.ofText? s).map .value

/-- What a guest call returns under the reference conventions. -/
abbrev ResultType := Returned ValueType

end CallLayout

import CallLayout.Convention.Aapcs32
import CallLayout.Convention.Cdecl32
import CallLayout.Convention.Syscall64
import CallLayout.Machine.Reader
import CallLayout.Report
import CallLayout.Text.Blank

/-!
# The catalog of guest calls

The guest calls that have names, with their signatures, and the choice of a reference convention
by name.
-/

namespace CallLayout

namespace Abi

/-- A character with the ASCII capitals made small. -/
def lowerAscii (c : Char) : Char :=
  if 'A' ≤ c ∧ c ≤ 'Z' then Char.ofNat (c.toNat + 32) else c

/-- The reference convention of a name. Blanks around the name and the case of ASCII letters do
not count. -/
def ofName? (name : String) : Option Abi :=
  all.find? fun abi => abi.name.toList = (Text.trim name.toList).map lowerAscii

/-- Reads the name of a reference convention. The error carries the name as it was given. -/
def read (name : String) : Except Error Abi :=
  match ofName? name with
  | some abi => .ok abi
  | none => .error (.unknownAbi name)

/-- The report on placing a call under a reference convention. -/
def describe (abi : Abi) (m : Machine) (s : Signature ResultType ValueType) :
    Except Overflow Report :=
  match abi with
  | .syscall64 => CallLayout.syscall64.describe m s
  | .aapcs32 => CallLayout.aapcs32.describe m s
  | .cdecl32 => CallLayout.cdecl32.describe m s

/-- The report on placing a call, with the convention given by name and the machine by a text and
a stack pointer. The name is read before the text. -/
def describeNamed (abi : String) (s : Signature ResultType ValueType) (state? : Option String)
    (stackPointer? : Option UInt64) : Except Error Report := do
  let abi ← read abi
  let m ← Machine.ofSources state? stackPointer?
  (abi.describe m s).mapError .overflow

end Abi

/-- A guest call with a name. -/
structure GuestCall where
  /-- The name of the call. -/
  name : String
  /-- The types of its result and its arguments. -/
  signature : Signature ResultType ValueType
  /-- What the call does. -/
  summary : String
  deriving DecidableEq, Repr

namespace Catalog

/-- A scalar that is returned. -/
def returned (s : Scalar) : ResultType :=
  .value (.scalar s)

/-- The guest calls that have names. -/
def calls : List GuestCall :=
  [{ name := "exit"
     signature := ⟨.unit, [.scalar .i32]⟩
     summary := "terminate the calling process" },
   { name := "read"
     signature := ⟨returned .i32, [.scalar .i32, .scalar .guestPtr, .scalar .u32]⟩
     summary := "read from a file descriptor" },
   { name := "write"
     signature := ⟨returned .i32, [.scalar .i32, .scalar .guestPtr, .scalar .u32]⟩
     summary := "write to a file descriptor" },
   { name := "lseek64"
     signature := ⟨returned .i64, [.scalar .i32, .scalar .i64, .scalar .i32]⟩
     summary := "reposition a file offset" },
   { name := "pread64"
     signature :=
       ⟨returned .i32, [.scalar .i32, .scalar .guestPtr, .scalar .u32, .scalar .i64]⟩
     summary := "read at a file offset" },
   { name := "mmap"
     signature :=
       ⟨returned .guestPtr,
         [.scalar .guestPtr, .scalar .u32, .scalar .i32, .scalar .i32, .scalar .i32,
           .scalar .i64]⟩
     summary := "map memory" },
   { name := "div"
     signature := ⟨.value (.blob 8), [.scalar .i32, .scalar .i32]⟩
     summary := "quotient and remainder returned by value" },
   { name := "lldiv"
     signature := ⟨.value (.blob 16), [.scalar .i64, .scalar .i64]⟩
     summary := "64-bit quotient and remainder returned by value" },
   { name := "vec3_dot"
     signature := ⟨returned .i32, [.blob 12, .blob 12]⟩
     summary := "dot product of two vectors passed by value" }]

/-- The guest call of a name. -/
def find? (name : String) : Option GuestCall :=
  calls.find? fun call => call.name = name

/-- The report on placing a guest call under a reference convention. -/
def describe (abi : Abi) (name : String) (m : Machine) : Except Error Report :=
  match find? name with
  | some call => (abi.describe m call.signature).mapError .overflow
  | none => .error (.unknownCall name)

/-- The report on placing a guest call, with the convention given by name and the machine by a
text and a stack pointer. The convention's name is read before the text, and the call is looked
up last. -/
def describeNamed (abi name : String) (state? : Option String) (stackPointer? : Option UInt64) :
    Except Error Report := do
  let abi ← Abi.read abi
  let m ← Machine.ofSources state? stackPointer?
  describe abi name m

end Catalog

end CallLayout

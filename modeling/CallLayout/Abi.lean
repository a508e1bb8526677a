/-!
# The reference conventions

The names of the three conventions that guest calls can be laid out under.
-/

namespace CallLayout

/-- A reference convention. -/
inductive Abi where
  /-- The 64-bit register-only system call convention. -/
  | syscall64
  /-- The 32-bit Arm procedure call convention. -/
  | aapcs32
  /-- The 32-bit stack-only C convention. -/
  | cdecl32
  deriving DecidableEq, Repr

namespace Abi

/-- Every reference convention, in the order in which they are listed. -/
def all : List Abi :=
  [.syscall64, .aapcs32, .cdecl32]

/-- The name of a reference convention. -/
def name : Abi → String
  | .syscall64 => "syscall64"
  | .aapcs32 => "aapcs32"
  | .cdecl32 => "cdecl32"

end Abi

end CallLayout

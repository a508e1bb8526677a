/-!
# Arithmetic on machine words

Addresses and register counts are 64-bit words. Addresses wrap around at the top of the address
space; counters must not, so their operations are checked and an operation that leaves the range
of a word is an `Overflow`.
-/

namespace CallLayout

/-- The way in which a checked operation left the range of a word. -/
inductive Overflow where
  /-- A sum of `2 ^ 64` or more. -/
  | addition
  /-- A difference below zero. -/
  | subtraction
  deriving DecidableEq, Repr

namespace Overflow

/-- The text of an overflow. -/
def message : Overflow → String
  | .addition => "attempt to add with overflow"
  | .subtraction => "attempt to subtract with overflow"

end Overflow

namespace Word

/-- The sum of two words, unless it does not fit a word. -/
def add (a b : UInt64) : Except Overflow UInt64 :=
  if a.toNat + b.toNat < UInt64.size then .ok (a + b) else .error .addition

/-- The difference of two words, unless it is negative. -/
def sub (a b : UInt64) : Except Overflow UInt64 :=
  if b ≤ a then .ok (a - b) else .error .subtraction

/-- The least multiple of `m` that is at least `n`, unless it does not fit a word. -/
def nextMultiple (n m : UInt64) : Except Overflow UInt64 :=
  if n % m = 0 then .ok n else add n (m - n % m)

/-- The number of units of size `unit` that hold `n`, the last one perhaps in part. -/
def unitsFor (n unit : UInt64) : UInt64 :=
  if n % unit = 0 then n / unit else n / unit + 1

/-- An address rounded up to a multiple of `align`, a power of two, modulo `2 ^ 64`. -/
def alignUp (address align : UInt64) : UInt64 :=
  (address + (align - 1)) &&& ~~~(align - 1)

end Word

end CallLayout

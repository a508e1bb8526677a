/-!
# Numerals

Unsigned numbers as text. A numeral is an optional plus sign and at least one ASCII digit of its
base; leading zeros are allowed and a minus sign never is. Numbers are written in decimal with
no leading zero.
-/

namespace CallLayout.Numeral

/-- The value of an ASCII digit, letters of either case standing for ten to fifteen. -/
def digitValue? (c : Char) : Option Nat :=
  if '0' ≤ c ∧ c ≤ '9' then some (c.toNat - 48)
  else if 'a' ≤ c ∧ c ≤ 'f' then some (c.toNat - 87)
  else if 'A' ≤ c ∧ c ≤ 'F' then some (c.toNat - 55)
  else none

/-- The value of a digit of the given base. -/
def digit? (base : Nat) (c : Char) : Option Nat :=
  (digitValue? c).filter (· < base)

/-- The value of a string of digits, most significant first. -/
def digits? (base : Nat) (s : List Char) : Option Nat :=
  s.foldlM (fun value c => (digit? base c).map (value * base + ·)) 0

/-- The value of a non-empty string of digits. -/
def magnitude? (base : Nat) (s : List Char) : Option Nat :=
  if s.isEmpty then none else digits? base s

/-- The value of a numeral: a plus sign may stand in front of the digits. -/
def unsigned? (base : Nat) : List Char → Option Nat
  | '+' :: s => magnitude? base s
  | s => magnitude? base s

/-- The value of a numeral that fits 64 bits. -/
def word? (base : Nat) (s : List Char) : Option UInt64 := do
  let n ← unsigned? base s
  if h : n < UInt64.size then some (UInt64.ofNatLT n h) else none

/-- The digit of a value below ten. -/
def decimalDigit (n : Nat) : Char :=
  Char.ofNat (48 + n)

/-- A number in decimal, most significant digit first. -/
def decimalDigits (n : Nat) : List Char :=
  if n < 10 then [decimalDigit n] else decimalDigits (n / 10) ++ [decimalDigit (n % 10)]

/-- A number in decimal. -/
def decimal (n : Nat) : String :=
  String.ofList (decimalDigits n)

/-- A 64-bit number in decimal. -/
def ofWord (n : UInt64) : String :=
  decimal n.toNat

end CallLayout.Numeral

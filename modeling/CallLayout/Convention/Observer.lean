import CallLayout.Convention

/-!
# Observed placement

An observer is told of every step of a placement, right after the step: which step it was, how
the type is written and which position was reached. It gathers what it likes, and has no say in
the positions.

The arguments of a call are numbered from zero. Arguments can also be placed without a call,
numbered from any word on; their numbers are counted with a check.
-/

namespace CallLayout

/-- What is gathered over a placement, step by step, in a value of type `σ`. -/
abbrev Observer (P σ : Type) := Step → String → P → σ → σ

/-- An observed step: which one it was, and the type that it placed. -/
structure LogEntry where
  /-- The step. -/
  step : Step
  /-- The written form of the type placed. -/
  type : String
  deriving DecidableEq, Repr

/-- The observer that writes down every step. -/
def Observer.log {P : Type} : Observer P (List LogEntry) :=
  fun step type _ entries => entries ++ [⟨step, type⟩]

namespace Convention

variable {P R A σ : Type} [GuestType R] [GuestType A]

/-- Places a result under an observer. -/
def watchResult (c : Convention P R A) (observe : Observer P σ) (registers : Registers) (type : R)
    (s : P × σ) : Except Overflow (P × σ) := do
  let p ← c.result registers type s.1
  .ok (p, observe .result (GuestType.text type) p s.2)

/-- Places arguments under an observer and numbers them from the given number on. The arguments of
a call are numbered by their places in it, which are small: a call has twelve arguments at most. -/
def watchNumbered (c : Convention P R A) (observe : Observer P σ) (registers : Registers) :
    Nat → List A → P × σ → Except Overflow (P × σ)
  | _, [], s => .ok s
  | index, type :: types, s => do
    let p ← c.argument registers type s.1
    c.watchNumbered observe registers (index + 1) types
      (p, observe (.argument index) (GuestType.text type) p s.2)

/-- Places a call under an observer; its arguments are numbered from zero. -/
def watchCall (c : Convention P R A) (observe : Observer P σ) (registers : Registers)
    (signature : Signature R A) (s : P × σ) : Except Overflow (P × σ) := do
  let s ← c.watchResult observe registers signature.result s
  c.watchNumbered observe registers 0 signature.arguments s

/-- Places arguments under an observer and numbers them from any word on. The next number is
computed after every argument, also after the last one, whose number must not be the greatest. -/
def watchArguments (c : Convention P R A) (observe : Observer P σ) (registers : Registers) :
    UInt64 → List A → P × σ → Except Overflow (P × σ)
  | _, [], s => .ok s
  | index, type :: types, s => do
    let p ← c.argument registers type s.1
    let next ← Word.add index 1
    c.watchArguments observe registers next types
      (p, observe (.argument index.toNat) (GuestType.text type) p s.2)

end Convention

end CallLayout

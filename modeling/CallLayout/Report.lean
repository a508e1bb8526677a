import CallLayout.Convention.Observer

/-!
# Layout reports

A report tells for every step of placing a call which registers and which stack bytes the step
went over. Its ranges are those of the position's movement: a register that is skipped to align a
value belongs to that value's range. Each range starts where the one before it ended.
-/

namespace CallLayout

/-- A range of register numbers or stack bytes, from its start up to but not including its end. -/
structure Span where
  /-- The start of the range. -/
  start : UInt64
  /-- The end of the range. -/
  stop : UInt64
  deriving DecidableEq, Repr

/-- The range holds nothing; one that ends before it starts does not either. -/
def Span.isEmpty (s : Span) : Bool :=
  s.stop ≤ s.start

/-- What one step went over. -/
structure StepLayout where
  /-- The step. -/
  step : Step
  /-- The written form of the type placed. -/
  type : String
  /-- The registers gone over. -/
  registers : Span
  /-- The stack bytes gone over. -/
  stack : Span
  /-- The names of the registers gone over, or none if one of them has no name. -/
  registerNames : List String
  deriving DecidableEq, Repr

/-- The step went over nothing. -/
def StepLayout.isEmpty (s : StepLayout) : Bool :=
  s.registers.isEmpty && s.stack.isEmpty

/-- The account of placing one call. -/
structure Report where
  /-- The name of the convention. -/
  abi : String
  /-- The written form of the signature. -/
  signature : String
  /-- The steps, in order. -/
  steps : List StepLayout
  /-- The number of argument registers handed out. -/
  registersUsed : UInt64
  /-- The number of stack bytes handed out. -/
  stackUsed : UInt64
  /-- The text of the position after the call. -/
  finalPosition : String
  deriving DecidableEq, Repr

/-- What has been recorded of a placement: how far the last step got, and all steps. -/
structure Recorder where
  /-- The number of argument registers handed out. -/
  registers : UInt64
  /-- The number of stack bytes handed out. -/
  stack : UInt64
  /-- The steps recorded, in order. -/
  steps : List StepLayout
  deriving DecidableEq, Repr

namespace Convention

variable {P R A : Type} (c : Convention P R A)

/-- The names of some registers from the given one on, if all of them have names. -/
def registerNamesFrom? : Nat → Nat → Option (List String)
  | _, 0 => some []
  | first, count + 1 => do
    let name ← c.registerName? first
    let names ← registerNamesFrom? (first + 1) count
    some (name :: names)

/-- The names of the registers of a range, or none if one of them has no name. -/
def registerNamesIn (s : Span) : List String :=
  (c.registerNamesFrom? s.start.toNat (s.stop.toNat - s.start.toNat)).getD []

end Convention

namespace MeteredConvention

variable {P R A : Type} [GuestType R] [GuestType A] (c : MeteredConvention P R A)

/-- A recorder that stands at a position and has recorded nothing. -/
def recorderAt (p : P) : Recorder :=
  { registers := c.registersUsed p, stack := c.stackUsed p, steps := [] }

/-- The layout of the step from where a recorder stands to a position. -/
def stepLayout (step : Step) (type : String) (p : P) (r : Recorder) : StepLayout :=
  let registers := ⟨r.registers, c.registersUsed p⟩
  { step, type, registers
    stack := ⟨r.stack, c.stackUsed p⟩
    registerNames := c.registerNamesIn registers }

/-- The observer that records what each step went over. Types are shown by their short names
(`TypeName.short`), and the written form of a type has no module path, so it is its short name. -/
def record : Observer P Recorder :=
  fun step type p r =>
    { c.recorderAt p with steps := r.steps ++ [c.stepLayout step type p r] }

/-- The report on placing a call from the start. The signature is shown by its short name as well,
which is its written form. -/
def describe (m : Machine) (s : Signature R A) : Except Overflow Report := do
  let start := c.start m
  let (p, r) ← c.watchCall c.record m.registers s (start, c.recorderAt start)
  .ok {
    abi := c.name
    signature := s.text
    steps := r.steps
    registersUsed := c.registersUsed p
    stackUsed := c.stackUsed p
    finalPosition := c.positionText p }

end MeteredConvention

end CallLayout

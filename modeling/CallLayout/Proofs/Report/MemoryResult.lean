import CallLayout.Proofs.Composition
import CallLayout.Proofs.Report.Account

/-!
# Results in memory

A result that does not fit the result registers is returned in memory, and the caller passes its
address in front of the arguments. Two conventions do this (`Abi.ReturnsInMemory`), each for the
aggregates above a size of its own. The module compares the reports on two calls:

* `Report.PassesAddress`: the second call returns nothing and has the address of the first one's
  result as one more argument in front;
* `Report.IgnoresResult`: the second call returns nothing, and the first one's result takes nothing
  either.

That the rule for a result is the rule for an address, or no rule at all, is a fact about one step
(`Abi.result_eq_address`, `Abi.result_eq_ok`). What follows for whole reports holds for every
convention: the walk of the one call is the walk of the other, perhaps with a step in front that
goes nowhere. `memory_result_placed_as_pointer` puts the two together.
-/

namespace CallLayout

/-! ## Comparing reports -/

/-- The step that a step becomes if the result is passed as an argument in front of the others. -/
def Step.next : Step → Step
  | .result => .argument 0
  | .argument index => .argument (index + 1)

namespace StepLayout

/-- The step is that of a result which takes nothing. -/
structure IsFree (l : StepLayout) : Prop where
  step : l.step = .result
  registers : l.registers = ⟨0, 0⟩
  stack : l.stack = ⟨0, 0⟩
  registerNames : l.registerNames = []

/-- The second step goes over what the first one goes over, one place later in its call. -/
structure IsNext (l l' : StepLayout) : Prop where
  step : l'.step = l.step.next
  registers : l'.registers = l.registers
  stack : l'.stack = l.stack
  registerNames : l'.registerNames = l.registerNames

end StepLayout

namespace Report

/-- The second report is on the call of the first one with the result passed as an argument in
front of the others. -/
structure PassesAddress (r r' : Report) : Prop where
  /-- The result of the second call takes nothing, -/
  free : ∃ l, r'.steps.head? = some l ∧ l.IsFree
  /-- and behind it come the steps of the first call, each one place later. -/
  steps : List.Forall₂ StepLayout.IsNext r.steps r'.steps.tail
  /-- Both calls end alike. -/
  ending : r.ending = r'.ending

/-- The first report is on the call of the second one with a result that takes nothing. -/
structure IgnoresResult (r r' : Report) : Prop where
  /-- The result takes nothing, -/
  free : ∃ l, r.steps.head? = some l ∧ l.IsFree
  /-- and the arguments lie where they lie without it. -/
  arguments : r.steps.tail = r'.steps.tail
  /-- Both calls end alike. -/
  ending : r.ending = r'.ending

end Report

/-- Arguments that are numbered from one higher come one place later. -/
theorem forall₂_argumentLog {A : Type} [GuestType A] (index : ℕ) (types : List A) :
    List.Forall₂ (fun entry entry' : LogEntry => entry'.step = entry.step.next)
      (argumentLog index types) (argumentLog (index + 1) types) := by
  induction types generalizing index with
  | nil => exact .nil
  | cons type types ih =>
    rw [argumentLog_cons, argumentLog_cons]
    exact .cons rfl (ih (index + 1))

namespace MeteredConvention

variable {P R A : Type} {c : MeteredConvention P R A}

/-- Steps that come one place later between the same positions go over the same. -/
theorem forall₂_layoutsAlong {log log' : List LogEntry}
    (h : List.Forall₂ (fun entry entry' : LogEntry => entry'.step = entry.step.next) log log')
    (p : ℕ → P) :
    List.Forall₂ StepLayout.IsNext (c.layoutsAlong log p) (c.layoutsAlong log' p) := by
  induction h generalizing p with
  | nil => exact .nil
  | cons hstep _ ih =>
    rw [layoutsAlong_cons, layoutsAlong_cons]
    exact .cons ⟨hstep, rfl, rfl, rfl⟩ (ih fun k => p (k + 1))

/-- A result that stays at a position where nothing is handed out takes nothing. -/
theorem isFree_layoutBetween {p : P} (hregisters : c.registersUsed p = 0)
    (hstack : c.stackUsed p = 0) (type : String) :
    (c.layoutBetween ⟨.result, type⟩ p p).IsFree where
  step := rfl
  registers := by
    change Span.mk (c.registersUsed p) (c.registersUsed p) = _
    rw [hregisters]
  stack := by
    change Span.mk (c.stackUsed p) (c.stackUsed p) = _
    rw [hstack]
  registerNames := by
    change c.registerNamesIn ⟨c.registersUsed p, c.registersUsed p⟩ = []
    rw [Convention.registerNamesIn, Nat.sub_self]
    rfl

variable [GuestType R] [GuestType A]

theorem steps_reportAlong (result : R) (types : List A) (p : ℕ → P) :
    (c.reportAlong ⟨result, types⟩ p).steps =
      c.layoutBetween ⟨.result, GuestType.text result⟩ (p 0) (p 1) ::
        c.layoutsAlong (argumentLog 0 types) fun k => p (k + 1) := by
  rw [reportAlong, Signature.log_eq, layoutsAlong_cons]

section Calls

variable {m : Machine} {result nothing : R} {types : List A} {p : ℕ → P}

/-- A result that is placed as an address is placed as an argument behind nothing. -/
theorem describe_passesAddress {address : A} (hregisters : c.registersUsed (c.start m) = 0)
    (hstack : c.stackUsed (c.start m) = 0)
    (hnothing : ∀ p, c.result m.registers nothing p = .ok p)
    (hresult : ∀ p, c.result m.registers result p = c.argument m.registers address p)
    {r : Report} (h : c.describe m ⟨result, types⟩ = .ok r) :
    ∃ r', c.describe m ⟨nothing, address :: types⟩ = .ok r' ∧ r.PassesAddress r' := by
  obtain ⟨p, hwalk, hstart, rfl⟩ := describe_eq_ok_iff.mp h
  obtain ⟨hhead, htail⟩ := Convention.walk_cons_iff.mp hwalk
  change c.result m.registers result (p 0) = .ok (p 1) at hhead
  -- The second call stays at the start for a step and then goes the way of the first one.
  have hwalk' : c.Walk m.registers (Signature.items ⟨nothing, address :: types⟩)
      fun k => p (k - 1) := by
    refine Convention.walk_cons_iff.mpr ⟨hnothing (p 0), Convention.walk_cons_iff.mpr ⟨?_, htail⟩⟩
    change c.argument m.registers address (p 0) = .ok (p 1)
    rw [← hresult, hhead]
  rw [← hstart] at hregisters hstack
  refine ⟨_, describe_eq_reportAlong hwalk' hstart, ?_, ?_, rfl⟩
  · rw [steps_reportAlong]
    exact ⟨_, rfl, isFree_layoutBetween hregisters hstack _⟩
  · rw [steps_reportAlong, steps_reportAlong, List.tail_cons, argumentLog_cons,
      layoutsAlong_cons]
    exact .cons ⟨rfl, rfl, rfl, rfl⟩
      (forall₂_layoutsAlong (forall₂_argumentLog 0 types) fun k => p (k + 1))

/-- A result that takes nothing makes no difference to the arguments, or to the overflow. -/
theorem describe_ignoresResult (hregisters : c.registersUsed (c.start m) = 0)
    (hstack : c.stackUsed (c.start m) = 0)
    (hnothing : ∀ p, c.result m.registers nothing p = .ok p)
    (hresult : ∀ p, c.result m.registers result p = .ok p) :
    (∃ cause, c.describe m ⟨result, types⟩ = .error cause ∧
        c.describe m ⟨nothing, types⟩ = .error cause) ∨
      ∃ r r', c.describe m ⟨result, types⟩ = .ok r ∧ c.describe m ⟨nothing, types⟩ = .ok r' ∧
        r.IgnoresResult r' := by
  cases h : c.describe m ⟨result, types⟩ with
  | error cause =>
    refine .inl ⟨cause, rfl, ?_⟩
    -- Both calls are placed as their arguments are.
    rw [describe_eq_error_iff, Convention.placeCall, hresult] at h
    rw [describe_eq_error_iff, Convention.placeCall, hnothing]
    exact h
  | ok r =>
    obtain ⟨p, hwalk, hstart, rfl⟩ := describe_eq_ok_iff.mp h
    obtain ⟨hhead, htail⟩ := Convention.walk_cons_iff.mp hwalk
    change c.result m.registers result (p 0) = .ok (p 1) at hhead
    have hstay : p 1 = p 0 := Except.ok.inj (hhead.symm.trans (hresult (p 0)))
    have hwalk' : c.Walk m.registers (Signature.items ⟨nothing, types⟩) p := by
      refine Convention.walk_cons_iff.mpr ⟨?_, htail⟩
      change c.result m.registers nothing (p 0) = .ok (p 1)
      rw [hnothing, hstay]
    refine .inr ⟨_, _, rfl, describe_eq_reportAlong hwalk' hstart, ?_, ?_, rfl⟩
    · rw [steps_reportAlong, hstay]
      rw [← hstart] at hregisters hstack
      exact ⟨_, rfl, isFree_layoutBetween hregisters hstack _⟩
    · rw [steps_reportAlong, steps_reportAlong, List.tail_cons, List.tail_cons]

end Calls

end MeteredConvention

/-! ## The reference conventions -/

namespace Abi

/-- The result is returned in memory. -/
def ReturnsInMemory : Abi → ResultType → Prop
  | .aapcs32, .value (.blob size) => 4 < size.toNat
  | .cdecl32, .value (.blob size) => 8 < size.toNat
  | _, _ => False

variable {abi : Abi} {result : ResultType}

/-- A result that is returned in memory is placed as its address. -/
theorem result_eq_address (h : abi.ReturnsInMemory result) (registers : Registers)
    (p : abi.Position) :
    abi.convention.result registers result p =
      abi.convention.argument registers (.scalar .guestPtr) p := by
  match abi, result with
  | .aapcs32, .value (.blob size) =>
    change (if 4 < size.toNat then _ else _) = Aapcs32.Position.takeWord p
    exact if_pos h
  | .cdecl32, .value (.blob size) =>
    change Except.ok (if 8 < size.toNat then _ else _) = Except.ok (Cdecl32.Position.push p 4)
    exact congrArg Except.ok (if_pos h)

/-- Any other result takes nothing. -/
theorem result_eq_ok (h : ¬ abi.ReturnsInMemory result) (registers : Registers)
    (p : abi.Position) : abi.convention.result registers result p = .ok p := by
  match abi, result with
  | .syscall64, _ | .aapcs32, .unit | .aapcs32, .value (.scalar _) | .cdecl32, .unit
  | .cdecl32, .value (.scalar _) => rfl
  | .aapcs32, .value (.blob size) =>
    change (if 4 < size.toNat then _ else _) = _
    exact if_neg h
  | .cdecl32, .value (.blob size) =>
    change Except.ok (if 8 < size.toNat then _ else _) = _
    exact congrArg Except.ok (if_neg h)

theorem not_returnsInMemory_unit (abi : Abi) : ¬ abi.ReturnsInMemory .unit := by
  cases abi <;> exact id

/-- Only the system call convention leaves a call without a report. -/
theorem eq_syscall64_of_describe_eq_error {m : Machine} {s : Signature ResultType ValueType}
    {cause : Overflow} (h : abi.convention.describe m s = .error cause) : abi = .syscall64 := by
  cases abi with
  | syscall64 => rfl
  | aapcs32 => exact nomatch (Aapcs32.describe_eq m s).symm.trans h
  | cdecl32 => exact nomatch (Cdecl32.describe_eq m s).symm.trans h

end Abi

/-- A result that is returned in memory is laid out as an address that is passed in front of the
arguments: the reports on both calls exist, each step of the one goes over the same as the next
step of the other, under the same names, and both calls end alike. Any other result takes nothing,
and the arguments lie where they lie without it. Only the system call convention can leave a call
without a report, and then it does so with and without the result. -/
theorem memory_result_placed_as_pointer (abi : Abi) (m : Machine) (result : ResultType)
    (types : List ValueType) :
    (abi.ReturnsInMemory result → ∃ r r', abi.describe m ⟨result, types⟩ = .ok r ∧
      abi.describe m ⟨.unit, .scalar .guestPtr :: types⟩ = .ok r' ∧ r.PassesAddress r') ∧
    (¬ abi.ReturnsInMemory result →
      (abi = .syscall64 ∧ ∃ cause, abi.describe m ⟨result, types⟩ = .error cause ∧
        abi.describe m ⟨.unit, types⟩ = .error cause) ∨
      ∃ r r', abi.describe m ⟨result, types⟩ = .ok r ∧ abi.describe m ⟨.unit, types⟩ = .ok r' ∧
        r.IgnoresResult r') := by
  simp only [Abi.describe_eq_describe_convention]
  have hregisters := Abi.registersUsed_start abi m
  have hstack := Abi.stackUsed_start abi m
  have hnothing := Abi.result_eq_ok abi.not_returnsInMemory_unit m.registers
  constructor
  · intro h
    cases hr : abi.convention.describe m ⟨result, types⟩ with
    | error cause =>
      -- The system call convention returns nothing in memory.
      obtain rfl := Abi.eq_syscall64_of_describe_eq_error hr
      exact absurd h id
    | ok r =>
      obtain ⟨r', hr', hpasses⟩ := MeteredConvention.describe_passesAddress hregisters hstack
        hnothing (Abi.result_eq_address h m.registers) hr
      exact ⟨r, r', rfl, hr', hpasses⟩
  · intro h
    refine (MeteredConvention.describe_ignoresResult hregisters hstack hnothing
      (Abi.result_eq_ok h m.registers)).imp_left ?_
    rintro ⟨cause, hr, hr'⟩
    exact ⟨Abi.eq_syscall64_of_describe_eq_error hr, cause, hr, hr'⟩

/-- Behind the address of an aggregate of five bytes a 64-bit scalar starts at the third register,
as it does behind a pointer; one of four bytes leaves the scalar the first two. -/
theorem memory_result_placed_as_pointer_five_and_four_bytes :
    let m : Machine := { Machine.zero with stackPointer := 0x8006 }
    let types : List ValueType := [.scalar .i64, .blob 12]
    (∃ r r', Abi.aapcs32.describe m ⟨.value (.blob 5), types⟩ = .ok r ∧
      Abi.aapcs32.describe m ⟨.unit, .scalar .guestPtr :: types⟩ = .ok r' ∧ r.PassesAddress r') ∧
    ∃ r r', Abi.aapcs32.describe m ⟨.value (.blob 4), types⟩ = .ok r ∧
      Abi.aapcs32.describe m ⟨.unit, types⟩ = .ok r' ∧ r.IgnoresResult r' := by
  intro m types
  have hfive : Abi.aapcs32.ReturnsInMemory (.value (.blob 5)) := show 4 < 5 by decide
  have hfour : ¬ Abi.aapcs32.ReturnsInMemory (.value (.blob 4)) := show ¬ 4 < 4 by decide
  refine ⟨(memory_result_placed_as_pointer .aapcs32 m (.value (.blob 5)) types).1 hfive, ?_⟩
  rcases (memory_result_placed_as_pointer .aapcs32 m (.value (.blob 4)) types).2 hfour with h | h
  · cases h.1
  · exact h

end CallLayout

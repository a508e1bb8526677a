import CallLayout.Proofs.Aapcs32.Cursor
import CallLayout.Proofs.Report.Recorder
import Mathlib.Order.Monotone.Basic

/-!
# Reports under the Arm convention

A report under the Arm convention is the report of a run of the cursor (`describe_eq`). The
ranges of a step tell on which side of the sixteenth byte the cursor was before and after it, and
since the cursor never moves back, the steps of a report fall into three phases (`Phased`): first
steps that use no stack, then at most one value that is split, then steps that use no register.

The main result is `no_backfill`: once a step has used the stack, no later one uses a register.
-/

namespace CallLayout.Aapcs32

/-- A call always has a report, and it is that of the cursor's run. -/
theorem describe_eq (m : Machine) (s : Signature ResultType ValueType) :
    aapcs32.describe m s = .ok (aapcs32.reportAlong s fun k =>
      .ofCursor (stackBase m) (cursor (phase m) (s.items.take k))) :=
  MeteredConvention.describe_eq_reportAlong (walk_cursor m s.items) (start_eq_ofCursor m).symm

theorem toNat_registersUsed_ofCursor (base : UInt64) (v : ℕ) :
    (aapcs32.registersUsed (.ofCursor base v)).toNat = min 4 (v / 4) :=
  (Position.atCursor_ofCursor base v).nextRegister

/-- No call is given more than the four registers. -/
theorem registersUsed_le_of_describe {m : Machine} {s : Signature ResultType ValueType}
    {r : Report} (h : aapcs32.describe m s = .ok r) : r.registersUsed ≤ 4 := by
  rw [describe_eq] at h
  rw [← Except.ok.inj h, UInt64.le_iff_toNat_le]
  exact (toNat_registersUsed_ofCursor (stackBase m) _).trans_le (Nat.min_le_left _ _)

/-- A cursor further on has handed out no fewer registers. -/
theorem registersUsed_ofCursor_mono (base : UInt64) {v w : ℕ} (h : v ≤ w) :
    aapcs32.registersUsed (.ofCursor base v) ≤ aapcs32.registersUsed (.ofCursor base w) := by
  rw [UInt64.le_iff_toNat_le, toNat_registersUsed_ofCursor, toNat_registersUsed_ofCursor]
  omega

/-- The stack bytes handed out do not depend on the address of the stack. -/
theorem stackUsed_ofCursor (base : UInt64) (v : ℕ) :
    aapcs32.stackUsed (.ofCursor base v) = UInt64.ofNat (v - 16) := by
  change base + UInt64.ofNat (v - 16) - base = _
  rw [UInt64.add_comm, UInt64.add_sub_cancel]

/-! ## The phases of a report -/

section Ranges

variable {base : UInt64} {entry : LogEntry} {v w : ℕ}

/-- A step that ends in the registers uses no stack. -/
theorem stack_isEmpty_layoutBetween (h : w ≤ 16) :
    (aapcs32.layoutBetween entry (.ofCursor base v) (.ofCursor base w)).stack.isEmpty := by
  refine decide_eq_true ?_
  change aapcs32.stackUsed (.ofCursor base w) ≤ aapcs32.stackUsed (.ofCursor base v)
  rw [stackUsed_ofCursor, show w - 16 = 0 by omega]
  exact UInt64.zero_le

/-- A step uses no register exactly if its cursor starts and ends in the same one. -/
theorem registers_isEmpty_layoutBetween_iff :
    (aapcs32.layoutBetween entry (.ofCursor base v) (.ofCursor base w)).registers.isEmpty ↔
      min 4 (w / 4) ≤ min 4 (v / 4) := by
  rw [← toNat_registersUsed_ofCursor base v, ← toNat_registersUsed_ofCursor base w]
  exact decide_eq_true_iff

end Ranges

/-- The steps of a report fall into three phases: first steps that use no stack, then at most one
value that lies in registers and in the stack, then steps that use no register. -/
def Phased (steps : List StepLayout) : Prop :=
  ∃ inRegisters split inStack, steps = inRegisters ++ split ++ inStack ∧
    (∀ s ∈ inRegisters, s.stack.isEmpty) ∧
    split.length ≤ 1 ∧ (∀ s ∈ split, ¬ s.registers.isEmpty ∧ ¬ s.stack.isEmpty) ∧
    ∀ s ∈ inStack, s.registers.isEmpty

section Phases

variable {first : StepLayout} {steps : List StepLayout}

/-- A step that uses no stack may stand in front. -/
theorem Phased.cons (hfirst : first.stack.isEmpty) (h : Phased steps) :
    Phased (first :: steps) := by
  obtain ⟨inRegisters, split, inStack, rfl, hregisters, hrest⟩ := h
  exact ⟨first :: inRegisters, split, inStack, rfl,
    List.forall_mem_cons.mpr ⟨hfirst, hregisters⟩, hrest⟩

theorem phased_of_registers_isEmpty (h : ∀ s ∈ steps, s.registers.isEmpty) : Phased steps :=
  ⟨[], [], steps, rfl, nofun, Nat.zero_le 1, nofun, h⟩

/-- Any step may stand in front of steps that use no register. -/
theorem phased_cons_of_registers_isEmpty (h : ∀ s ∈ steps, s.registers.isEmpty) :
    Phased (first :: steps) := by
  by_cases hstack : first.stack.isEmpty
  · exact (phased_of_registers_isEmpty h).cons hstack
  by_cases hregisters : first.registers.isEmpty
  · exact phased_of_registers_isEmpty (List.forall_mem_cons.mpr ⟨hregisters, h⟩)
  -- It is the value that is split.
  · exact ⟨[], [first], steps, rfl, nofun, Nat.le_refl 1,
      List.forall_mem_singleton.mpr ⟨hregisters, hstack⟩, h⟩

end Phases

/-- Steps of a cursor that has left the registers use no register. -/
theorem registers_isEmpty_of_mem_layoutsAlong {base : UInt64} {log : List LogEntry} {v : ℕ → ℕ}
    (hleft : ∀ k, 16 ≤ v k) :
    ∀ s ∈ aapcs32.layoutsAlong log fun k => .ofCursor base (v k), s.registers.isEmpty := by
  intro s hs
  obtain ⟨k, hk, rfl⟩ := List.mem_mapIdx.mp hs
  have hstart := hleft k
  exact registers_isEmpty_layoutBetween_iff.mpr (by omega)

/-- The steps of a cursor that never moves back fall into the three phases. -/
theorem phased_layoutsAlong (base : UInt64) (log : List LogEntry) {v : ℕ → ℕ} (hv : Monotone v) :
    Phased (aapcs32.layoutsAlong log fun k => .ofCursor base (v k)) := by
  induction log generalizing v with
  | nil => exact phased_of_registers_isEmpty nofun
  | cons entry log ih =>
    rw [MeteredConvention.layoutsAlong_cons]
    by_cases hend : v 1 ≤ 16
    · have hnext : Monotone fun k => v (k + 1) := fun j k h => hv (Nat.succ_le_succ h)
      exact (ih hnext).cons (stack_isEmpty_layoutBetween hend)
    · have hleft : ∀ k, 16 ≤ v (k + 1) := fun k =>
        (show 16 ≤ v 1 by omega).trans (hv (Nat.succ_le_succ k.zero_le))
      exact phased_cons_of_registers_isEmpty (registers_isEmpty_of_mem_layoutsAlong hleft)

/-- Of two steps of a cursor that never moves back, if the first uses the stack then the second
uses no register. -/
theorem pairwise_layoutsAlong (base : UInt64) (log : List LogEntry) {v : ℕ → ℕ}
    (hv : Monotone v) :
    (aapcs32.layoutsAlong log fun k => .ofCursor base (v k)).Pairwise
      fun a b => ¬ a.stack.isEmpty → b.registers.isEmpty := by
  refine List.pairwise_iff_getElem.mpr fun i j hi hj hij hstack => ?_
  simp only [MeteredConvention.layoutsAlong, List.getElem_mapIdx] at hstack ⊢
  -- A step that uses the stack ends behind the registers, and the cursor stays there.
  have hleft : 16 < v (i + 1) := by
    by_contra hend
    exact hstack (stack_isEmpty_layoutBetween (by omega))
  have hlater : v (i + 1) ≤ v j := hv hij
  exact registers_isEmpty_layoutBetween_iff.mpr (by omega)

/-- The Arm convention never goes back to a register. Whatever is placed, in whatever order, the
position reached has handed out at most four registers, and nothing of the stack while a register
is left. Hence in the report on any call, which always exists, a step that uses the stack is
followed by steps without registers only, and the steps fall into the three phases. -/
theorem no_backfill (m : Machine) :
    (∀ items : List (Item ResultType ValueType), ∃ p,
      aapcs32.placeItems m.registers items (aapcs32.start m) = .ok p ∧
        p.nextRegister ≤ 4 ∧ (p.nextRegister < 4 → p.nextStacked = p.stackBase)) ∧
      ∀ s : Signature ResultType ValueType, ∃ r, aapcs32.describe m s = .ok r ∧
        (r.steps.Pairwise fun a b => ¬ a.stack.isEmpty → b.registers.isEmpty) ∧
        Phased r.steps := by
  constructor
  · intro items
    refine ⟨_, placeItems_start m items, ?_, fun hlt => ?_⟩
    · rw [UInt64.le_iff_toNat_le, (Position.atCursor_ofCursor _ _).nextRegister]
      exact Nat.min_le_left 4 _
    · exact Position.nextStacked_ofCursor_of_lt (Position.nextRegister_ofCursor_lt_iff.mp hlt)
  · intro s
    have hv : Monotone fun k => cursor (phase m) (s.items.take k) :=
      monotone_nat_of_le_succ (cursor_take_le_succ (phase m) s.items)
    exact ⟨_, describe_eq m s, pairwise_layoutsAlong _ s.log hv, phased_layoutsAlong _ s.log hv⟩

end CallLayout.Aapcs32

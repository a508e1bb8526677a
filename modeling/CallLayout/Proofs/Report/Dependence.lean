import CallLayout.Proofs.Report.Account
import CallLayout.Report.Display

/-!
# What a report depends on

Two machines are compared by their reports on the same call. No reference convention looks at the
general registers, so the stack pointer is all that can make a difference, and it does so under
two of the three conventions only.

The module introduces:

* `Report.SameRegisters`: the reports hand out the same registers;
* `Report.SameLayout`: the reports differ in the text of the last position at most, which shows
  addresses.

Stack-only reports always have the same layout. Reports under the Arm convention always hand out
the same registers, and have the same layout if their stacks begin at the same address modulo
eight. `describe_dependence` puts the three conventions together.
-/

namespace CallLayout

/-! ## Comparing reports -/

namespace Report

/-- Two reports hand out the same registers, step by step and in total. -/
structure SameRegisters (r₁ r₂ : Report) : Prop where
  /-- Each step goes over the same registers in both, under the same names. -/
  steps : (r₁.steps.map fun l => (l.step, l.registers, l.registerNames)) =
    r₂.steps.map fun l => (l.step, l.registers, l.registerNames)
  /-- As many registers are handed out. -/
  registersUsed : r₁.registersUsed = r₂.registersUsed

/-- Two reports differ in the text of the last position at most. -/
def SameLayout (r₁ r₂ : Report) : Prop :=
  r₁ = { r₂ with finalPosition := r₁.finalPosition }

/-- The full text does not show the last position. -/
theorem SameLayout.display_eq {r₁ r₂ : Report} (h : r₁.SameLayout r₂) :
    r₁.display = r₂.display := by
  rw [h]
  rfl

/-- Nor does the summary. -/
theorem SameLayout.summarize_eq {r₁ r₂ : Report} (h : r₁.SameLayout r₂) :
    r₁.summarize = r₂.summarize := by
  rw [h]
  rfl

end Report

namespace MeteredConvention

variable {P R A : Type} [GuestType R] [GuestType A] {c : MeteredConvention P R A}
  {s : Signature R A} {p q : ℕ → P}

/-- Walks that hand out the same registers have reports that do. -/
theorem sameRegisters_reportAlong (h : ∀ k, c.registersUsed (p k) = c.registersUsed (q k)) :
    (c.reportAlong s p).SameRegisters (c.reportAlong s q) where
  steps := by
    refine List.ext_getElem (by simp [length_steps_reportAlong]) fun k hk hk' => ?_
    rw [List.length_map] at hk hk'
    rw [List.getElem_map, List.getElem_map, getElem_steps_reportAlong s p hk,
      getElem_steps_reportAlong s q hk']
    simp only [layoutBetween, stepLayout, recorderAt, h]
  registersUsed := h _

/-- Walks that hand out the same registers and the same stack bytes have reports of the same
layout. -/
theorem sameLayout_reportAlong (hregisters : ∀ k, c.registersUsed (p k) = c.registersUsed (q k))
    (hstack : ∀ k, c.stackUsed (p k) = c.stackUsed (q k)) :
    (c.reportAlong s p).SameLayout (c.reportAlong s q) := by
  simp only [Report.SameLayout, reportAlong, layoutsAlong, layoutBetween, stepLayout, recorderAt,
    hregisters, hstack]

end MeteredConvention

/-! ## The general registers -/

namespace Convention

variable {P R A σ : Type} {c : Convention P R A}

/-- A convention whose rules do not look at the general registers. -/
structure IgnoresRegisters (c : Convention P R A) : Prop where
  /-- Results are placed alike, whatever the registers hold, -/
  result : ∀ g₁ g₂, c.result g₁ = c.result g₂
  /-- and so are arguments. -/
  argument : ∀ g₁ g₂, c.argument g₁ = c.argument g₂

namespace IgnoresRegisters

variable [GuestType A]

theorem watchNumbered_congr (h : c.IgnoresRegisters) (observe : Observer P σ)
    (g₁ g₂ : Registers) (index : ℕ) (types : List A) (state : P × σ) :
    c.watchNumbered observe g₁ index types state =
      c.watchNumbered observe g₂ index types state := by
  induction types generalizing index state with
  | nil => rfl
  | cons type types ih =>
    rw [watchNumbered, watchNumbered, h.argument g₁ g₂]
    exact bind_congr fun p => ih _ _

theorem watchCall_congr [GuestType R] (h : c.IgnoresRegisters) (observe : Observer P σ)
    (g₁ g₂ : Registers) (s : Signature R A) (state : P × σ) :
    c.watchCall observe g₁ s state = c.watchCall observe g₂ s state := by
  rw [watchCall, watchCall, watchResult, watchResult, h.result g₁ g₂]
  exact bind_congr fun state => h.watchNumbered_congr observe g₁ g₂ 0 s.arguments state

end IgnoresRegisters

end Convention

/-- The report of a convention that does not look at the general registers depends on the start
alone. -/
theorem MeteredConvention.describe_congr {P R A : Type} [GuestType R] [GuestType A]
    {c : MeteredConvention P R A} (h : c.IgnoresRegisters) {m₁ m₂ : Machine}
    (hstart : c.start m₁ = c.start m₂) (s : Signature R A) :
    c.describe m₁ s = c.describe m₂ s := by
  rw [describe, describe, hstart, h.watchCall_congr c.record m₁.registers m₂.registers]

theorem Abi.ignoresRegisters (abi : Abi) : abi.convention.IgnoresRegisters := by
  cases abi <;> exact ⟨fun _ _ => rfl, fun _ _ => rfl⟩

/-- No reference convention looks at more of the machine than the stack pointer. -/
theorem Abi.start_congr (abi : Abi) {m₁ m₂ : Machine}
    (h : m₁.stackPointer = m₂.stackPointer) :
    abi.convention.start m₁ = abi.convention.start m₂ := by
  rw [Convention.start, Convention.start]
  cases abi.convention.seed with
  | fixed position => rfl
  | ofStackPointer position => exact congrArg position h

/-! ## The stack pointer -/

section StackPointer

variable (m₁ m₂ : Machine) (s : Signature ResultType ValueType)

/-- Reports of the stack-only convention have the same layout. -/
theorem Cdecl32.sameLayout_describe :
    ∃ r₁ r₂, cdecl32.describe m₁ s = .ok r₁ ∧ cdecl32.describe m₂ s = .ok r₂ ∧
      r₁.SameLayout r₂ := by
  refine ⟨_, _, describe_eq m₁ s, describe_eq m₂ s, ?_⟩
  refine MeteredConvention.sameLayout_reportAlong (fun _ => rfl) fun k => ?_
  rw [stackUsed_ofTotal, stackUsed_ofTotal]

/-- Reports of the Arm convention hand out the same registers, and have the same layout if the
stacks are aligned alike. -/
theorem Aapcs32.sameRegisters_describe :
    ∃ r₁ r₂, aapcs32.describe m₁ s = .ok r₁ ∧ aapcs32.describe m₂ s = .ok r₂ ∧
      r₁.SameRegisters r₂ ∧ (phase m₁ = phase m₂ → r₁.SameLayout r₂) := by
  refine ⟨_, _, describe_eq m₁ s, describe_eq m₂ s, ?_, fun hphase => ?_⟩
  · refine MeteredConvention.sameRegisters_reportAlong fun k => ?_
    -- The register that a cursor is in depends on its first sixteen bytes only.
    have hmin := min_cursor_eq (phase m₁) (phase m₂) (s.items.take k)
    apply UInt64.toNat_inj.mp
    rw [toNat_registersUsed_ofCursor, toNat_registersUsed_ofCursor]
    omega
  · refine MeteredConvention.sameLayout_reportAlong (fun k => ?_) fun k => ?_
    · rw [hphase]
      rfl
    · rw [stackUsed_ofCursor, stackUsed_ofCursor, hphase]

/-- What the reports on a call may depend on. Under the system call convention neither a report
nor its absence depends on the machine. Under the stack-only convention there always is a report,
and its layout does not depend on the machine. Under the Arm convention there always is a report
too, the registers that it hands out do not depend on the machine, and its layout depends on the
address of the stack modulo eight only. Reports of the same layout look the same in either text.
The general registers make no difference under any convention. -/
theorem describe_dependence :
    Abi.syscall64.describe m₁ s = Abi.syscall64.describe m₂ s ∧
      (∃ r₁ r₂, Abi.cdecl32.describe m₁ s = .ok r₁ ∧ Abi.cdecl32.describe m₂ s = .ok r₂ ∧
        r₁.SameLayout r₂ ∧ r₁.display = r₂.display ∧ r₁.summarize = r₂.summarize) ∧
      (∃ r₁ r₂, Abi.aapcs32.describe m₁ s = .ok r₁ ∧ Abi.aapcs32.describe m₂ s = .ok r₂ ∧
        r₁.SameRegisters r₂ ∧
        ((Word.alignUp m₁.stackPointer 4).toNat % 8 = (Word.alignUp m₂.stackPointer 4).toNat % 8 →
          r₁.SameLayout r₂ ∧ r₁.display = r₂.display ∧ r₁.summarize = r₂.summarize)) ∧
      (m₁.stackPointer = m₂.stackPointer → ∀ abi : Abi, abi.describe m₁ s = abi.describe m₂ s) := by
  refine ⟨?_, ?_, ?_, fun hstackPointer abi => ?_⟩
  · have hstart : Abi.syscall64.convention.start m₁ = Abi.syscall64.convention.start m₂ := rfl
    exact MeteredConvention.describe_congr Abi.syscall64.ignoresRegisters hstart s
  · obtain ⟨r₁, r₂, h₁, h₂, hlayout⟩ := Cdecl32.sameLayout_describe m₁ m₂ s
    exact ⟨r₁, r₂, h₁, h₂, hlayout, hlayout.display_eq, hlayout.summarize_eq⟩
  · obtain ⟨r₁, r₂, h₁, h₂, hregisters, hlayout⟩ := Aapcs32.sameRegisters_describe m₁ m₂ s
    refine ⟨r₁, r₂, h₁, h₂, hregisters, fun hphase => ?_⟩
    exact ⟨hlayout hphase, (hlayout hphase).display_eq, (hlayout hphase).summarize_eq⟩
  · rw [Abi.describe_eq_describe_convention, Abi.describe_eq_describe_convention]
    exact MeteredConvention.describe_congr abi.ignoresRegisters (abi.start_congr hstackPointer) s

end StackPointer

/-- A stack that wraps around is laid out as one that does not, and a general register makes no
difference. -/
theorem describe_dependence_wrapping :
    let m : Machine := { Machine.zero with stackPointer := 0xfffffffffffffff6 }
    let low : Machine := { Machine.zero with stackPointer := 0x7ffd }
    let s : Signature ResultType ValueType := ⟨.unit, [.scalar .i32, .blob 16, .scalar .i64]⟩
    (Word.alignUp m.stackPointer 4).toNat % 8 = (Word.alignUp low.stackPointer 4).toNat % 8 ∧
      (∃ r₁ r₂, Abi.aapcs32.describe m s = .ok r₁ ∧ Abi.aapcs32.describe low s = .ok r₂ ∧
        r₁.SameRegisters r₂ ∧ r₁.SameLayout r₂) ∧
      ∀ abi : Abi, abi.describe m s = abi.describe (m.setRegister ⟨3, by decide⟩ 7) s := by
  intro m low s
  have hphase :
      (Word.alignUp m.stackPointer 4).toNat % 8 = (Word.alignUp low.stackPointer 4).toNat % 8 := by
    decide
  obtain ⟨r₁, r₂, h₁, h₂, hregisters, hlayout⟩ := (describe_dependence m low s).2.2.1
  refine ⟨hphase, ⟨r₁, r₂, h₁, h₂, hregisters, (hlayout hphase).1⟩, ?_⟩
  exact (describe_dependence m (m.setRegister ⟨3, by decide⟩ 7) s).2.2.2 rfl

end CallLayout

import CallLayout.Proofs.Report.Lossless
import CallLayout.Proofs.Text.Json
import CallLayout.Report.Json

/-!
# What a report as JSON tells

Unlike the two texts of a report, its JSON form shows every range from its start to its end, and
the last position as well. So it tells the report, whether its ranges are reversed or not and
whatever its texts hold (`Report.pretty_json_injective`). A report in turn tells the convention
that it was made under, and its steps tell the types of the call (`log_injective`), so that the
JSON form leaves open nothing of the question but the machine (`json_lossless`).
-/

namespace CallLayout

/-! ## The JSON form -/

theorem Json.word_injective : Function.Injective Json.word := by
  intro v w h
  exact UInt64.toNat_inj.mp (Json.number.inj h)

theorem Span.json_injective : Function.Injective Span.json := by
  rintro ⟨start, stop⟩ ⟨start', stop'⟩ h
  simp only [json, Json.list.injEq, List.cons.injEq, Json.word_injective.eq_iff, and_true] at h
  obtain ⟨rfl, rfl⟩ := h
  rfl

/-- The number of an argument tells the step, since a result has none. -/
theorem Step.indexJson_injective : Function.Injective Step.indexJson := by
  rintro (_ | index) (_ | index') h
  · rfl
  · cases h
  · cases h
  · exact congrArg _ (Json.number.inj h)

theorem StepLayout.json_injective : Function.Injective StepLayout.json := by
  have hnames := List.map_injective_iff.mpr fun _ _ => Json.text.inj
  rintro ⟨step, type, registers, stack, names⟩ ⟨step', type', registers', stack', names'⟩ h
  simp only [json, Json.object.injEq, List.cons.injEq, Prod.mk.injEq, Json.text.injEq,
    Json.list.injEq, Step.indexJson_injective.eq_iff, Span.json_injective.eq_iff, hnames.eq_iff,
    true_and, and_true] at h
  -- The role says nothing that the number of the argument does not.
  obtain ⟨rfl, rfl, rfl, -, rfl, rfl⟩ := h
  rfl

theorem Report.json_injective : Function.Injective Report.json := by
  have hsteps := List.map_injective_iff.mpr StepLayout.json_injective
  rintro ⟨abi, signature, steps, registers, stack, position⟩
    ⟨abi', signature', steps', registers', stack', position'⟩ h
  simp only [json, Json.object.injEq, List.cons.injEq, Prod.mk.injEq, Json.text.injEq,
    Json.list.injEq, Json.word_injective.eq_iff, hsteps.eq_iff, true_and, and_true] at h
  obtain ⟨rfl, rfl, rfl, rfl, rfl, rfl⟩ := h
  rfl

/-- Any two reports with the same JSON text are equal, whether they are reports of a call or not. -/
theorem Report.pretty_json_injective : Function.Injective fun r : Report => r.json.pretty :=
  Json.pretty_injective.comp Report.json_injective

/-! ## The call of a report -/

theorem Signature.map_type_log {R A : Type} [GuestType R] [GuestType A] (s : Signature R A) :
    s.log.map LogEntry.type = GuestType.text s.result :: s.arguments.map GuestType.text := by
  refine List.ext_getElem (by simp) fun k hk hk' => ?_
  cases k with
  | zero => rfl
  | succ k => simp [Signature.log]

/-- The steps of a call tell its types. -/
theorem Signature.log_injective :
    Function.Injective (Signature.log : Signature ResultType ValueType → List LogEntry) := by
  rintro ⟨result, arguments⟩ ⟨result', arguments'⟩ h
  have htypes := congrArg (List.map LogEntry.type) h
  rw [map_type_log, map_type_log, List.cons.injEq] at htypes
  obtain rfl := text_resultType_injective htypes.1
  obtain rfl := List.map_injective_iff.mpr text_valueType_injective htypes.2
  rfl

/-- A report tells which convention and which types it is about. -/
theorem Abi.describe_inj {abi abi' : Abi} {m m' : Machine}
    {s s' : Signature ResultType ValueType} {r : Report} (h : abi.describe m s = .ok r)
    (h' : abi'.describe m' s' = .ok r) : abi = abi' ∧ s = s' := by
  constructor
  · exact name_inj ((abi_eq_of_describe h).symm.trans (abi_eq_of_describe h'))
  · exact Signature.log_injective ((log_steps_of_describe h).symm.trans (log_steps_of_describe h'))

/-- The JSON form of a report loses nothing. Reports on any calls under any reference conventions
have the same JSON text exactly if they are equal, and then they are about calls of the same types
under the same convention. No range needs to end behind its start. -/
theorem json_lossless {abi₁ abi₂ : Abi} {m₁ m₂ : Machine}
    {s₁ s₂ : Signature ResultType ValueType} {r₁ r₂ : Report}
    (h₁ : abi₁.describe m₁ s₁ = .ok r₁) (h₂ : abi₂.describe m₂ s₂ = .ok r₂) :
    (r₁.json.pretty = r₂.json.pretty ↔ r₁ = r₂) ∧ (r₁ = r₂ → abi₁ = abi₂ ∧ s₁ = s₂) := by
  constructor
  · exact Report.pretty_json_injective.eq_iff
  · rintro rfl
    exact Abi.describe_inj h₁ h₂

/-- Two stacks that begin at different addresses show in the JSON form only, even if the stack
bytes handed out exceed a word. -/
theorem json_lossless_wrapping :
    let m₁ : Machine := { Machine.zero with stackPointer := 0x1000 }
    let m₂ : Machine := { Machine.zero with stackPointer := 0x2000 }
    let s : Signature ResultType ValueType := ⟨.unit, [.blob 0xfffffffffffffffc, .blob 8]⟩
    ∃ r₁ r₂, Abi.cdecl32.describe m₁ s = .ok r₁ ∧ Abi.cdecl32.describe m₂ s = .ok r₂ ∧
      (∃ l ∈ r₁.steps, l.stack.stop < l.stack.start) ∧
      r₁.display = r₂.display ∧ r₁.json.pretty ≠ r₂.json.pretty := by
  intro m₁ m₂ s
  have h₁ : Abi.cdecl32.describe m₁ s = .ok _ := Cdecl32.describe_eq m₁ s
  have h₂ : Abi.cdecl32.describe m₂ s = .ok _ := Cdecl32.describe_eq m₂ s
  refine ⟨_, _, h₁, h₂, by decide +kernel, by decide +kernel, fun htext => ?_⟩
  have hposition := congrArg Report.finalPosition ((json_lossless h₁ h₂).1.mp htext)
  exact absurd hposition (by decide +kernel)

end CallLayout

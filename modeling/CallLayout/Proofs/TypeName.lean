import CallLayout.Proofs.Text.Decimal
import CallLayout.Proofs.TypeName.Separator
import CallLayout.Signature

/-!
# The written forms of types

The reference conventions' types and signatures are written with few marks besides letters and
digits (`writtenWith_text_valueType`, `Signature.writtenWith_text`), and different types are written
differently. There is no colon among the marks, so the written forms are names without a path to
leave out, which shortening leaves as they are (`short_text_valueType`, `short_text_resultType`,
`short_text_signature`). That is why a report can show the written forms.
-/

namespace CallLayout

open Text (WrittenWith)

/-! ## Marks -/

theorem writtenWith_text_valueType (type : ValueType) :
    WrittenWith "<>" (GuestType.text type) := by
  match type with
  | .scalar s => cases s <;> decide
  | .blob size =>
    have hopen : WrittenWith "<>" "Blob<" := by decide
    have hclose : WrittenWith "<>" ">" := by decide
    change WrittenWith "<>" ("Blob<" ++ Numeral.ofWord size ++ ">")
    simp [hopen, hclose]

theorem writtenWith_text_resultType (type : ResultType) :
    WrittenWith "<>()" (GuestType.text type) := by
  match type with
  | .unit => exact by decide
  | .value type => exact (writtenWith_text_valueType type).mono (by decide)

theorem Signature.writtenWith_text (s : Signature ResultType ValueType) :
    WrittenWith "<>(), -" s.text := by
  have hopen : WrittenWith "<>(), -" "fn(" := by decide
  have hclose : WrittenWith "<>(), -" ")" := by decide
  have harrow : WrittenWith "<>(), -" " -> " := by decide
  have harguments :
      WrittenWith "<>(), -" (Text.join ", " (s.arguments.map GuestType.text)) := by
    refine .join (by decide) fun t ht => ?_
    obtain ⟨type, -, rfl⟩ := List.mem_map.mp ht
    exact (writtenWith_text_valueType type).mono (by decide)
  have hresult := (writtenWith_text_resultType s.result).mono
    (by decide : "<>()".toList ⊆ "<>(), -".toList)
  rw [Signature.text, resultText]
  split <;> simp [hopen, hclose, harrow, harguments, hresult]

/-! ## Different types -/

/-- Different value types are written differently. -/
theorem text_valueType_injective :
    Function.Injective (GuestType.text : ValueType → String) := by
  -- No scalar begins as an aggregate does.
  have hne : ∀ (a : Scalar) (size : UInt64), a.name ≠ "Blob<" ++ Numeral.ofWord size ++ ">" := by
    intro a size h
    have hhead := congrArg (·.toList.head?) h
    cases a <;> simp [Scalar.name] at hhead
  rintro (a | size) (b | size') h
  · have hname : a.name = b.name → a = b := by cases a <;> cases b <;> decide
    exact congrArg _ (hname h)
  · exact absurd h (hne a size')
  · exact absurd h.symm (hne b size)
  · change "Blob<" ++ Numeral.ofWord size ++ ">" = "Blob<" ++ Numeral.ofWord size' ++ ">" at h
    rw [String.append_left_inj, String.append_right_inj] at h
    exact congrArg _ (Numeral.ofWord_inj h)

/-- Different result types are written differently. -/
theorem text_resultType_injective :
    Function.Injective (GuestType.text : ResultType → String) := by
  -- A value type has no parentheses in its written form.
  have hne : ∀ type : ValueType, unitText ≠ GuestType.text type := by
    intro type h
    have hparen : '(' ∉ unitText.toList := by
      rw [h]
      exact (writtenWith_text_valueType type).notMem (by decide) (by decide)
    exact hparen (by decide)
  rintro (_ | type) (_ | type') h
  · rfl
  · exact absurd h (hne type')
  · exact absurd h.symm (hne type)
  · exact congrArg _ (text_valueType_injective h)

/-! ## Names without paths -/

namespace TypeName

/-- Nor has that of a signature. -/
theorem short_text_signature (s : Signature ResultType ValueType) : short s.text = s.text :=
  short_of_colon_notMem (s.writtenWith_text.notMem (by decide) (by decide))

end TypeName

end CallLayout

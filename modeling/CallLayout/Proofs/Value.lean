import CallLayout.Proofs.Text.Decimal
import CallLayout.Proofs.Value.Grammar

/-!
# Writing values

A value can be written in many ways: in decimal, or in hexadecimal behind `0x` or `0X`, with zeros
in front, with letters of either case and with underscores among the digits. `Spells` lists them
without saying how a text is read. Every value can be spelled in both bases
(`exists_spacedDigits`), and each spelling of a value is read as that value, also between blanks
(`read_of_spells`).
-/

namespace CallLayout.Value

open Numeral (DigitsOf IsDigit)
open Text (isBlank)

/-- Digits of a base that stand for a number, with underscores anywhere among them. -/
structure SpacedDigits (base : ℕ) (s : List Char) (n : ℕ) : Prop where
  /-- There is a digit. -/
  ne_nil : s.filter (· ≠ '_') ≠ []
  /-- Without the underscores the digits stand for the number. -/
  digitsOf : DigitsOf base (s.filter (· ≠ '_')) n

/-- The ways to write a value. -/
inductive Spells : List Char → UInt64 → Prop where
  /-- In decimal. -/
  | decimal {s : List Char} {v : UInt64} : SpacedDigits 10 s v.toNat → Spells s v
  /-- In hexadecimal, behind a mark. -/
  | hexadecimal {x : Char} {s : List Char} {v : UInt64} :
      x = 'x' ∨ x = 'X' → SpacedDigits 16 s v.toNat → Spells ('0' :: x :: s) v

/-! ## Every value has spellings -/

theorem SpacedDigits.of_digitsOf {base n : ℕ} {s : List Char} (hne : s ≠ [])
    (h : DigitsOf base s n) : SpacedDigits base s n := by
  have hfilter : s.filter (· ≠ '_') = s := by
    refine List.filter_eq_self.mpr fun c hc => decide_eq_true ?_
    rintro rfl
    -- An underscore would be a digit.
    obtain ⟨d, -, hdigit⟩ := h.isDigit_of_mem hc
    exact nomatch Numeral.digitValue?_of_isDigit hdigit
  exact ⟨by rwa [hfilter], by rwa [hfilter]⟩

theorem spells_decimalDigits (v : UInt64) : Spells (Numeral.decimalDigits v.toNat) v :=
  .decimal (.of_digitsOf (Numeral.decimalDigits_ne_nil _) (Numeral.digitsOf_decimalDigits _))

/-- Every value can be written in either base. -/
theorem exists_spacedDigits (v : UInt64) :
    (∃ s, SpacedDigits 10 s v.toNat) ∧ ∃ s, SpacedDigits 16 s v.toNat := by
  have hdigits : ∀ base, 2 ≤ base → base ≤ 16 → ∃ s, SpacedDigits base s v.toNat := by
    intro base hbase hlimit
    obtain ⟨s, hne, hs⟩ := Numeral.exists_digitsOf hbase hlimit v.toNat
    exact ⟨s, .of_digitsOf hne hs⟩
  exact ⟨hdigits 10 (by decide) (by decide), hdigits 16 (by decide) (by decide)⟩

/-! ## Spellings are read -/

section Read

variable {base n : ℕ} {s : List Char} {v : UInt64} {c : Char}

theorem SpacedDigits.not_isBlank (h : SpacedDigits base s n) (hc : c ∈ s) : ¬ isBlank c := by
  by_cases hunderscore : c = '_'
  · subst hunderscore
    decide
  · have hmem : c ∈ s.filter (· ≠ '_') := List.mem_filter.mpr ⟨hc, decide_eq_true hunderscore⟩
    obtain ⟨d, -, hdigit⟩ := h.digitsOf.isDigit_of_mem hmem
    exact Numeral.not_isBlank_of_isDigit hdigit

theorem Spells.not_isBlank (h : Spells s v) (hc : c ∈ s) : ¬ isBlank c := by
  cases h with
  | decimal hdigits => exact hdigits.not_isBlank hc
  | hexadecimal hx hdigits =>
    -- The character is one of the two of the mark, or stands behind it.
    rcases List.mem_cons.mp hc with rfl | hc
    · decide
    rcases List.mem_cons.mp hc with rfl | hc
    · rcases hx with rfl | rfl <;> decide
    · exact hdigits.not_isBlank hc

theorem Spells.ne_nil (h : Spells s v) : s ≠ [] := by
  cases h with
  | decimal hdigits =>
    rintro rfl
    exact hdigits.ne_nil rfl
  | hexadecimal => simp

/-- Without its underscores a spelling is a numeral of the value. -/
theorem Spells.denotes (h : Spells s v) : Denotes (s.filter (· ≠ '_')) v.toNat := by
  cases h with
  | decimal hdigits => exact .decimal ⟨_, .inl rfl, hdigits.ne_nil, hdigits.digitsOf⟩
  | @hexadecimal x s v hx hdigits =>
    -- There are no underscores in the mark, so it still stands in front of the digits.
    have hmark : ('0' :: x :: s).filter (· ≠ '_') = '0' :: x :: s.filter (· ≠ '_') := by
      rcases hx with rfl | rfl <;> rfl
    rw [hmark]
    exact .hexadecimal hx ⟨_, .inl rfl, hdigits.ne_nil, hdigits.digitsOf⟩

/-- A spelling between blanks is read as the value. -/
theorem read_of_spells (h : Spells s v) {before after : List Char}
    (hbefore : ∀ c ∈ before, isBlank c) (hafter : ∀ c ∈ after, isBlank c) :
    read (String.ofList (before ++ s ++ after)) = .ok v := by
  have htrims : Text.Trims (String.ofList (before ++ s ++ after)).toList s := by
    rw [String.toList_ofList]
    exact ⟨⟨before, after, rfl, hbefore, hafter⟩,
      fun c hc => h.not_isBlank (List.mem_of_mem_head? hc),
      fun c hc => h.not_isBlank (List.mem_of_getLast? hc)⟩
  exact (read_eq_ok_iff htrims).mpr h.denotes

end Read

end CallLayout.Value

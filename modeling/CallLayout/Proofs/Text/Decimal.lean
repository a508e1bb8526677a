import CallLayout.Proofs.Numeral
import CallLayout.Proofs.Text.Line

/-!
# Writing numbers in decimal

The decimal writer of `CallLayout.Numeral` against the grammar of numerals: what is written for a
number stands for it (`digitsOf_decimalDigits`), so that different numbers are written differently
(`decimal_inj`).
-/

namespace CallLayout.Numeral

theorem isDigit_decimalDigit {d : ℕ} (h : d < 10) : IsDigit (decimalDigit d) d := by
  have hvalue : ∀ d < 10, digitValue? (decimalDigit d) = some d := by decide
  exact isDigit_of_digitValue? (hvalue d h)

/-- What is written for a number stands for it. -/
theorem digitsOf_decimalDigits (n : ℕ) : DigitsOf 10 (decimalDigits n) n := by
  -- The writer puts the last digit behind those of the quotient, as the grammar does.
  fun_induction decimalDigits n with
  | case1 n hlt => simpa using DigitsOf.nil.concat (isDigit_decimalDigit hlt) hlt
  | case2 n hge ih =>
    have hlast : n % 10 < 10 := Nat.mod_lt n (by decide)
    have hdigits := ih.concat (isDigit_decimalDigit hlast) hlast
    rwa [Nat.div_add_mod'] at hdigits

theorem decimalDigits_ne_nil (n : ℕ) : decimalDigits n ≠ [] := by
  fun_cases decimalDigits n <;> simp

theorem isDigit_of_mem_decimalDigits {n : ℕ} {c : Char} (h : c ∈ decimalDigits n) :
    c.isDigit := by
  have hdigit : ∀ d < 10, (decimalDigit d).isDigit := by decide
  fun_induction decimalDigits n with
  | case1 n hlt =>
    rw [List.mem_singleton] at h
    exact h ▸ hdigit n hlt
  | case2 n hge ih =>
    rw [List.mem_append, List.mem_singleton] at h
    rcases h with hinit | rfl
    · exact ih hinit
    · exact hdigit (n % 10) (Nat.mod_lt n (by decide))

/-- A character that is no digit stands in no decimal. -/
theorem notMem_decimalDigits {c : Char} (h : ¬ c.isDigit) (n : ℕ) : c ∉ decimalDigits n :=
  fun hmem => h (isDigit_of_mem_decimalDigits hmem)

@[simp]
theorem writtenWith_decimal (marks : String) (n : ℕ) : Text.WrittenWith marks (decimal n) := by
  intro c hc
  rw [decimal, String.toList_ofList] at hc
  simp [Char.isAlphanum, isDigit_of_mem_decimalDigits hc]

@[simp]
theorem writtenWith_ofWord (marks : String) (v : UInt64) : Text.WrittenWith marks (ofWord v) :=
  writtenWith_decimal marks v.toNat

theorem decimalDigits_inj {m n : ℕ} (h : decimalDigits m = decimalDigits n) : m = n := by
  have hm := digits?_eq_some_iff.mpr (digitsOf_decimalDigits m)
  rw [h, digits?_eq_some_iff.mpr (digitsOf_decimalDigits n)] at hm
  exact (Option.some.inj hm).symm

/-- Different numbers are written differently. -/
theorem decimal_inj {m n : ℕ} (h : decimal m = decimal n) : m = n :=
  decimalDigits_inj (String.ofList_inj.mp h)

theorem ofWord_inj {v w : UInt64} (h : ofWord v = ofWord w) : v = w :=
  UInt64.toNat_inj.mp (decimal_inj h)

theorem not_isBlank_of_isDigit {c : Char} {d : ℕ} (h : IsDigit c d) : ¬ Text.isBlank c := by
  have hrange := h.range
  -- The three ranges lie between the space and the next blank.
  simp [Text.isBlank, Text.blankRanges]
  omega

theorem not_isBlank_of_mem_decimalDigits {n : ℕ} {c : Char} (h : c ∈ decimalDigits n) :
    ¬ Text.isBlank c := by
  obtain ⟨d, -, hdigit⟩ := (digitsOf_decimalDigits n).isDigit_of_mem h
  exact not_isBlank_of_isDigit hdigit

end CallLayout.Numeral

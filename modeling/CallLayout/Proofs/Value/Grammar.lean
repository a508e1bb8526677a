import CallLayout.Proofs.Numeral
import CallLayout.Proofs.Text.Line
import CallLayout.Value
import Mathlib.Algebra.Order.Ring.Nat

/-!
# The grammar of values

A value is written with blanks around it and underscores anywhere in it, and without these it is a
numeral: a decimal one, or one to base sixteen behind `0x` or `0X`. `Denotes` is this grammar. The
sign of a numeral stands right before its digits, so it follows the mark of a hexadecimal.

A text is read as the value that it denotes, and it is refused exactly if it denotes no number
below `2 ^ 64` (`read_iff_denotes`). Nothing but letters, digits, plus signs and underscores stands
in a value (`Denotes.isAlphanum_of_mem`).
-/

namespace CallLayout.Value

open Numeral (IsDigit)
open Text (Trims WrittenWith)

/-- A text without underscores and without blanks around it, and the number that it denotes. -/
inductive Denotes : List Char → ℕ → Prop where
  /-- A decimal numeral. -/
  | decimal {s : List Char} {n : ℕ} : Numeral.Denotes 10 s n → Denotes s n
  /-- A numeral to base sixteen behind a mark. -/
  | hexadecimal {x : Char} {s : List Char} {n : ℕ} :
      x = 'x' ∨ x = 'X' → Numeral.Denotes 16 s n → Denotes ('0' :: x :: s) n

section Denotes

variable {s : List Char} {n : ℕ} {v : UInt64}

/-- A numeral holds digits of its base, and perhaps a plus sign. -/
theorem isDigit_of_mem_denotes {base : ℕ} (h : Numeral.Denotes base s n) {c : Char} (hc : c ∈ s) :
    c = '+' ∨ ∃ d < base, IsDigit c d := by
  obtain ⟨digits, rfl | rfl, -, hdigits⟩ := h
  · exact .inr (hdigits.isDigit_of_mem hc)
  · exact (List.mem_cons.mp hc).imp_right hdigits.isDigit_of_mem

/-- No decimal numeral looks like the mark of a hexadecimal. -/
theorem not_denotes_of_mark {x : Char} (hx : x = 'x' ∨ x = 'X') :
    ¬ Numeral.Denotes 10 ('0' :: x :: s) n := by
  intro h
  rcases isDigit_of_mem_denotes h (c := x) (by simp) with rfl | ⟨d, -, hdigit⟩
  · simp at hx
  · have hvalue := Numeral.digitValue?_of_isDigit hdigit
    rcases hx with rfl | rfl <;> cases hvalue

theorem denotes_mark_iff {x : Char} (hx : x = 'x' ∨ x = 'X') :
    Denotes ('0' :: x :: s) n ↔ Numeral.Denotes 16 s n := by
  constructor
  · rintro (hdecimal | ⟨-, hdigits⟩)
    · exact absurd hdecimal (not_denotes_of_mark hx)
    · exact hdigits
  · exact .hexadecimal hx

/-- The number of a text is the one that the text denotes, if it is below `2 ^ 64`. -/
theorem number?_eq_some_iff : number? s = some v ↔ Denotes s v.toNat := by
  fun_cases number? s with
  | case1 digits => rw [Numeral.word?_eq_some_iff, denotes_mark_iff (.inl rfl)]
  | case2 digits => rw [Numeral.word?_eq_some_iff, denotes_mark_iff (.inr rfl)]
  | case3 _ hsmall hcapital =>
    rw [Numeral.word?_eq_some_iff]
    refine ⟨.decimal, ?_⟩
    rintro (hdecimal | ⟨rfl | rfl, -⟩)
    · exact hdecimal
    · exact (hsmall _ rfl).elim
    · exact (hcapital _ rfl).elim

theorem number?_eq_none_iff : number? s = none ↔ ∀ n, Denotes s n → 2 ^ 64 ≤ n := by
  rw [Option.eq_none_iff_forall_ne_some]
  constructor
  · intro h n hn
    by_contra hlt
    -- The number would fit a word, which would then be read.
    have htoNat : (UInt64.ofNat n).toNat = n := UInt64.toNat_ofNat_of_lt' (Nat.lt_of_not_le hlt)
    exact h (UInt64.ofNat n) (number?_eq_some_iff.mpr (by rwa [htoNat]))
  · intro h v hv
    exact absurd (h _ (number?_eq_some_iff.mp hv)) (Nat.not_le_of_lt v.toNat_lt)

/-- What denotes a number is written with letters, digits and plus signs. -/
theorem Denotes.isAlphanum_of_mem (h : Denotes s n) {c : Char} (hc : c ∈ s) :
    c.isAlphanum ∨ c = '+' := by
  have hnumeral : ∀ {base s}, Numeral.Denotes base s n → c ∈ s → c.isAlphanum ∨ c = '+' := by
    intro base s hs hc
    rcases isDigit_of_mem_denotes hs hc with hplus | ⟨d, -, hdigit⟩
    · exact .inr hplus
    · exact .inl (Numeral.isAlphanum_of_isDigit hdigit)
  cases h with
  | decimal hs => exact hnumeral hs hc
  | hexadecimal hx hs =>
    rcases List.mem_cons.mp hc with rfl | hc
    · exact .inl (by decide)
    rcases List.mem_cons.mp hc with rfl | hc
    · rcases hx with rfl | rfl <;> exact .inl (by decide)
    · exact hnumeral hs hc

end Denotes

/-! ## Reading -/

section Read

variable {text : String} {core : List Char}

theorem ofChars?_eq_number? (h : Trims text.toList core) :
    ofChars? text.toList = number? (core.filter (· ≠ '_')) := by
  rw [ofChars?, Text.trim_eq_iff.mpr h]

/-- A text is read as the value that it denotes. -/
theorem read_eq_ok_iff (h : Trims text.toList core) {v : UInt64} :
    read text = .ok v ↔ Denotes (core.filter (· ≠ '_')) v.toNat := by
  rw [read, ofChars?_eq_number? h, ← number?_eq_some_iff]
  cases number? (core.filter (· ≠ '_')) <;> simp

/-- A text that denotes no number below `2 ^ 64` is refused. -/
theorem read_eq_error_iff (h : Trims text.toList core) {e : Error} :
    read text = .error e ↔ (∀ n, Denotes (core.filter (· ≠ '_')) n → 2 ^ 64 ≤ n) ∧
      e = .invalidValue (String.ofList core) := by
  rw [read, ofChars?_eq_number? h, ← number?_eq_none_iff, Text.trim_eq_iff.mpr h]
  cases number? (core.filter (· ≠ '_')) <;> simp [eq_comm]

end Read

/-- What is read as a value. Let `core` be a text without the blanks around it, of which there is
one. The text is read as the value that `core` denotes without its underscores, and then it holds
letters, digits, plus signs and underscores only. If `core` denotes no number so, or only one of
`2 ^ 64` or more, then the text is refused with `core` as it stands in the error. -/
theorem read_iff_denotes (text : String) :
    (∃ core, Trims text.toList core) ∧ ∀ core, Trims text.toList core →
      (∀ v, read text = .ok v ↔ Denotes (core.filter (· ≠ '_')) v.toNat) ∧
      (∀ e, read text = .error e ↔
        (∀ n, Denotes (core.filter (· ≠ '_')) n → 2 ^ 64 ≤ n) ∧
          e = .invalidValue (String.ofList core)) ∧
      ((∃ v, read text = .ok v) → WrittenWith "+_" (String.ofList core)) := by
  refine ⟨⟨_, Text.trims_trim _⟩, fun core hcore => ⟨fun v => read_eq_ok_iff hcore,
    fun e => read_eq_error_iff hcore, ?_⟩⟩
  rintro ⟨v, hv⟩ c hc
  rw [String.toList_ofList] at hc
  by_cases hunderscore : c = '_'
  · exact .inr (by simp [hunderscore])
  · have hmem : c ∈ core.filter (· ≠ '_') :=
      List.mem_filter.mpr ⟨hc, decide_eq_true hunderscore⟩
    have hchar := ((read_eq_ok_iff hcore).mp hv).isAlphanum_of_mem hmem
    exact hchar.imp_right fun hplus => by simp [hplus]

/-- An underscore may stand within the mark and behind the sign; the least number that fits no word
is refused with its underscore. -/
theorem read_iff_denotes_underscore_in_mark :
    Trims "\u00a00_x+_0fF\t".toList "0_x+_0fF".toList ∧ read "\u00a00_x+_0fF\t" = .ok 255 ∧
      Trims "_18446744073709551616 ".toList "_18446744073709551616".toList ∧
      read "_18446744073709551616 " = .error (.invalidValue "_18446744073709551616") := by
  have hspelled : Trims "\u00a00_x+_0fF\t".toList "0_x+_0fF".toList :=
    Text.trim_eq_iff.mp (by decide)
  have hlarge : Trims "_18446744073709551616 ".toList "_18446744073709551616".toList :=
    Text.trim_eq_iff.mp (by decide)
  refine ⟨hspelled, (((read_iff_denotes _).2 _ hspelled).1 255).mpr ?_, hlarge,
    (((read_iff_denotes _).2 _ hlarge).2.1 _).mpr ⟨number?_eq_none_iff.mp (by decide), rfl⟩⟩
  have hdigits : Numeral.DigitsOf 16 "0fF".toList 255 := Numeral.digits?_eq_some_iff.mp (by decide)
  exact .hexadecimal (.inl rfl) ⟨_, .inr rfl, by decide, hdigits⟩

end CallLayout.Value

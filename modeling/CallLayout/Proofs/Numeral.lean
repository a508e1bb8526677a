import CallLayout.Text.Numeral
import Mathlib.Data.List.Induction
import Mathlib.Data.Nat.Notation

/-!
# The grammar of numerals

A numeral is an optional plus sign and at least one digit. The module writes this down as
relations that say nothing of how a text is read:

* `IsDigit`: an ASCII digit and its value;
* `DigitsOf`: a string of digits of a base and the number that it stands for;
* `Denotes`: a numeral and its number.

The readers of `CallLayout.Numeral` accept exactly these (`digits?_eq_some_iff`,
`unsigned?_eq_some_iff`), and a numeral is read as a word exactly if its number fits one
(`word?_eq_some_iff`, `word?_eq_none_iff`).
-/

namespace CallLayout.Numeral

/-- An ASCII digit and its value; letters of either case stand for ten to fifteen. -/
inductive IsDigit : Char → ℕ → Prop where
  /-- A decimal digit. -/
  | decimal {c : Char} : '0' ≤ c → c ≤ '9' → IsDigit c (c.toNat - '0'.toNat)
  /-- A small letter. -/
  | small {c : Char} : 'a' ≤ c → c ≤ 'f' → IsDigit c (10 + (c.toNat - 'a'.toNat))
  /-- A capital letter. -/
  | capital {c : Char} : 'A' ≤ c → c ≤ 'F' → IsDigit c (10 + (c.toNat - 'A'.toNat))

/-- A string of digits of the base and the number that it stands for. A digit behind the string
multiplies the number by the base and adds the digit's value. -/
inductive DigitsOf (base : ℕ) : List Char → ℕ → Prop where
  /-- The empty string stands for zero. -/
  | nil : DigitsOf base [] 0
  /-- One more digit. -/
  | concat {s : List Char} {n d : ℕ} {c : Char} :
      DigitsOf base s n → IsDigit c d → d < base → DigitsOf base (s ++ [c]) (n * base + d)

/-- A numeral and the number that it denotes. -/
def Denotes (base : ℕ) (s : List Char) (n : ℕ) : Prop :=
  ∃ digits, (s = digits ∨ s = '+' :: digits) ∧ digits ≠ [] ∧ DigitsOf base digits n

/-! ## Digits -/

section Digits

variable {c : Char} {d : ℕ}

theorem digitValue?_of_isDigit (h : IsDigit c d) : digitValue? c = some d := by
  cases h with
  | decimal hlo hhi => exact if_pos ⟨hlo, hhi⟩
  | small hlo hhi =>
    have hlo' : 97 ≤ c.toNat := hlo
    -- No small letter is a decimal digit, which all come before it.
    have hdecimal : ¬ ('0' ≤ c ∧ c ≤ '9') := by
      rintro ⟨-, h : c.toNat ≤ 57⟩
      omega
    rw [digitValue?, if_neg hdecimal, if_pos ⟨hlo, hhi⟩]
    change some (c.toNat - 87) = some (10 + (c.toNat - 97))
    congr 1
    omega
  | capital hlo hhi =>
    have hlo' : 65 ≤ c.toNat := hlo
    have hhi' : c.toNat ≤ 70 := hhi
    have hdecimal : ¬ ('0' ≤ c ∧ c ≤ '9') := by
      rintro ⟨-, h : c.toNat ≤ 57⟩
      omega
    have hsmall : ¬ ('a' ≤ c ∧ c ≤ 'f') := by
      rintro ⟨h : 97 ≤ c.toNat, -⟩
      omega
    rw [digitValue?, if_neg hdecimal, if_neg hsmall, if_pos ⟨hlo, hhi⟩]
    change some (c.toNat - 55) = some (10 + (c.toNat - 65))
    congr 1
    omega

theorem isDigit_of_digitValue? (h : digitValue? c = some d) : IsDigit c d := by
  -- The character lies in one of the three ranges, so it is a digit of the value read there.
  have hrange : ∃ d', IsDigit c d' := by
    rw [digitValue?] at h
    split at h
    next hdecimal => exact ⟨_, .decimal hdecimal.1 hdecimal.2⟩
    next =>
      split at h
      next hsmall => exact ⟨_, .small hsmall.1 hsmall.2⟩
      next =>
        split at h
        next hcapital => exact ⟨_, .capital hcapital.1 hcapital.2⟩
        next => cases h
  obtain ⟨d', hd'⟩ := hrange
  rw [digitValue?_of_isDigit hd'] at h
  cases h
  exact hd'

/-- A digit of a base is one whose value is below the base. -/
theorem digit?_eq_some_iff {base : ℕ} : digit? base c = some d ↔ IsDigit c d ∧ d < base := by
  rw [digit?, Option.filter_eq_some_iff, decide_eq_true_iff]
  exact and_congr_left fun _ => ⟨isDigit_of_digitValue?, digitValue?_of_isDigit⟩

/-- Digits lie in three ranges of ASCII. -/
theorem IsDigit.range (h : IsDigit c d) : 48 ≤ c.toNat ∧ c.toNat ≤ 57 ∨
    65 ≤ c.toNat ∧ c.toNat ≤ 70 ∨ 97 ≤ c.toNat ∧ c.toNat ≤ 102 := by
  cases h with
  | decimal hlo hhi => exact .inl ⟨hlo, hhi⟩
  | small hlo hhi => exact .inr (.inr ⟨hlo, hhi⟩)
  | capital hlo hhi => exact .inr (.inl ⟨hlo, hhi⟩)

theorem isAlphanum_of_isDigit (h : IsDigit c d) : c.isAlphanum := by
  have hrange := h.range
  unfold Char.isAlphanum Char.isAlpha Char.isUpper Char.isLower Char.isDigit
  simp only [Bool.or_eq_true, Bool.and_eq_true, decide_eq_true_eq, ge_iff_le,
    UInt32.le_iff_toNat_le]
  change ((65 ≤ c.toNat ∧ c.toNat ≤ 90) ∨ 97 ≤ c.toNat ∧ c.toNat ≤ 122) ∨
    48 ≤ c.toNat ∧ c.toNat ≤ 57
  omega

/-- The plus sign is no digit. -/
theorem not_isDigit_plus : ¬ IsDigit '+' d := by
  intro h
  have hvalue := digitValue?_of_isDigit h
  cases hvalue

end Digits

/-! ## Strings of digits -/

section Strings

variable {base n : ℕ} {s : List Char}

theorem digits?_concat (base : ℕ) (s : List Char) (c : Char) :
    digits? base (s ++ [c]) =
      (digits? base s).bind fun n => (digit? base c).map (n * base + ·) := by
  simp [digits?, List.foldlM_append]

/-- A string of digits is read as the number that it stands for. -/
theorem digits?_eq_some_iff : digits? base s = some n ↔ DigitsOf base s n := by
  constructor
  · intro h
    induction s using List.reverseRecOn generalizing n with
    | nil =>
      cases h
      exact .nil
    | append_singleton s c ih =>
      rw [digits?_concat, Option.bind_eq_some_iff] at h
      obtain ⟨m, hm, hc⟩ := h
      obtain ⟨d, hd, rfl⟩ := Option.map_eq_some_iff.mp hc
      obtain ⟨hdigit, hlt⟩ := digit?_eq_some_iff.mp hd
      exact .concat (ih hm) hdigit hlt
  · intro h
    induction h with
    | nil => rfl
    | concat _ hdigit hlt ih =>
      rw [digits?_concat, ih, digit?_eq_some_iff.mpr ⟨hdigit, hlt⟩]
      rfl

/-- A string of digits holds digits only. -/
theorem DigitsOf.isDigit_of_mem (h : DigitsOf base s n) {c : Char} (hc : c ∈ s) :
    ∃ d < base, IsDigit c d := by
  induction h with
  | nil => cases hc
  | concat _ hdigit hlt ih =>
    rcases List.mem_append.mp hc with hinit | hlast
    · exact ih hinit
    · obtain rfl := List.mem_singleton.mp hlast
      exact ⟨_, hlt, hdigit⟩

/-- A string of digits has no plus sign. -/
theorem DigitsOf.plus_notMem (h : DigitsOf base s n) : '+' ∉ s := by
  intro hplus
  obtain ⟨d, -, hdigit⟩ := h.isDigit_of_mem hplus
  exact not_isDigit_plus hdigit

/-- Every number has a string of digits, in each base up to sixteen. -/
theorem exists_digitsOf (hbase : 2 ≤ base) (hlimit : base ≤ 16) (n : ℕ) :
    ∃ s, s ≠ [] ∧ DigitsOf base s n := by
  have hdigit : ∀ d < 16, ∃ c, IsDigit c d := by
    intro d hd
    have hvalue : ∀ d < 16, digitValue? ("0123456789abcdef".toList.getD d '0') = some d := by
      decide
    exact ⟨_, isDigit_of_digitValue? (hvalue d hd)⟩
  induction n using Nat.strongRecOn with
  | ind n ih =>
    obtain ⟨c, hc⟩ := hdigit (n % base) (Nat.lt_of_lt_of_le (Nat.mod_lt n (by omega)) hlimit)
    have hlt : n % base < base := Nat.mod_lt n (by omega)
    by_cases hsmall : n < base
    · have hone := DigitsOf.nil.concat hc hlt
      rw [Nat.mod_eq_of_lt hsmall, Nat.zero_mul, Nat.zero_add] at hone
      exact ⟨[c], by simp, hone⟩
    · -- The digits of the quotient, and the remainder behind them.
      obtain ⟨s, -, hs⟩ := ih (n / base) (Nat.div_lt_self (by omega) hbase)
      have hconcat := hs.concat hc hlt
      rw [Nat.div_add_mod'] at hconcat
      exact ⟨s ++ [c], by simp, hconcat⟩

theorem magnitude?_eq_some_iff :
    magnitude? base s = some n ↔ s ≠ [] ∧ DigitsOf base s n := by
  rw [magnitude?, ← digits?_eq_some_iff]
  cases s with
  | nil => simp
  | cons c s => simp

end Strings

/-! ## Numerals -/

section Numerals

variable {base n : ℕ} {s : List Char}

/-- A numeral is read as the number that it denotes. -/
theorem unsigned?_eq_some_iff : unsigned? base s = some n ↔ Denotes base s n := by
  fun_cases unsigned? with
  | case1 s =>
    rw [magnitude?_eq_some_iff]
    constructor
    · rintro ⟨hne, hdigits⟩
      exact ⟨s, .inr rfl, hne, hdigits⟩
    · rintro ⟨digits, rfl | hplus, hne, hdigits⟩
      -- The sign cannot be one of the digits.
      · exact absurd List.mem_cons_self hdigits.plus_notMem
      · cases hplus
        exact ⟨hne, hdigits⟩
  | case2 s hsign =>
    rw [magnitude?_eq_some_iff]
    constructor
    · rintro ⟨hne, hdigits⟩
      exact ⟨s, .inl rfl, hne, hdigits⟩
    · rintro ⟨digits, rfl | hplus, hne, hdigits⟩
      · exact ⟨hne, hdigits⟩
      · exact absurd hplus (hsign digits)

/-- A numeral is read as a word exactly if its number fits one. -/
theorem word?_eq_some_iff {w : UInt64} : word? base s = some w ↔ Denotes base s w.toNat := by
  rw [word?, ← unsigned?_eq_some_iff]
  constructor
  · intro h
    obtain ⟨n, hn, hw⟩ := Option.bind_eq_some_iff.mp h
    split at hw
    next hlt =>
      cases hw
      rwa [UInt64.toNat_ofNatLT]
    next => cases hw
  · intro h
    rw [h]
    change (if h : w.toNat < UInt64.size then some (UInt64.ofNatLT w.toNat h) else none) = some w
    rw [dif_pos w.toNat_lt_size, UInt64.ofNatLT_toNat]

theorem word?_of_denotes (h : Denotes base s n) (hlt : n < UInt64.size) :
    word? base s = some (UInt64.ofNat n) := by
  rw [word?_eq_some_iff, UInt64.toNat_ofNat_of_lt' hlt]
  exact h

theorem word?_eq_none_iff : word? base s = none ↔ ¬ ∃ n < UInt64.size, Denotes base s n := by
  rw [Option.eq_none_iff_forall_ne_some, not_exists]
  constructor
  · rintro h n ⟨hlt, hn⟩
    exact h (UInt64.ofNat n) (word?_of_denotes hn hlt)
  · intro h w hw
    exact h w.toNat ⟨w.toNat_lt, word?_eq_some_iff.mp hw⟩

end Numerals

end CallLayout.Numeral

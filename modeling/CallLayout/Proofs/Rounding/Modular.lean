import CallLayout.Proofs.Rounding
import Mathlib.Data.Int.ModEq
import Mathlib.Order.Bounds.Basic

/-!
# Rounding addresses modulo `2 ^ 64`

An address is an integer modulo `2 ^ 64`, and so is the address that it is rounded up to. Which of
the integers stands for an address makes no difference, because `2 ^ 64` is itself a multiple of
every alignment: rounding the word of an integer up gives the word of that integer rounded up
(`alignUp_ofInt`). So the laws of rounding words are those of rounding integers, read modulo
`2 ^ 64`, and the top of the address space is no special case.

The module introduces `gapUp z unit`, the distance from an integer up to the least multiple of
`unit` from there on. `alignUp_exact` puts the laws together.
-/

namespace CallLayout.Word

/-! ## Words of integers -/

theorem toNat_ofInt (z : ℤ) : ((UInt64.ofInt z).toNat : ℤ) = z % 2 ^ 64 := by
  have hnonneg := Int.emod_nonneg z (by decide : (2 ^ 64 : ℤ) ≠ 0)
  have hlt := Int.emod_lt_of_pos z (by decide : (0 : ℤ) < 2 ^ 64)
  rw [UInt64.ofInt, UInt64.toNat_ofNat_of_lt']
  · exact Int.toNat_of_nonneg hnonneg
  · change _ < 2 ^ 64
    omega

theorem toNat_ofInt_modEq (z : ℤ) : ((UInt64.ofInt z).toNat : ℤ) ≡ z [ZMOD 2 ^ 64] := by
  rw [toNat_ofInt]
  exact Int.mod_modEq z _

/-- Integers that differ by a multiple of `2 ^ 64` have the same word. -/
theorem ofInt_congr {y z : ℤ} (h : y ≡ z [ZMOD 2 ^ 64]) : UInt64.ofInt y = UInt64.ofInt z := by
  unfold UInt64.ofInt
  rw [h]

theorem ofInt_natCast (n : ℕ) : UInt64.ofInt n = UInt64.ofNat n := by
  apply UInt64.toNat_inj.mp
  apply Int.natCast_inj.mp
  simp [toNat_ofInt]

theorem ofInt_toNat (v : UInt64) : UInt64.ofInt v.toNat = v := by
  rw [ofInt_natCast, UInt64.ofNat_toNat]

/-! ## Rounding integers -/

/-- The distance from an integer up to the least multiple of `unit` from there on. -/
def gapUp (z : ℤ) (unit : ℕ) : ℤ := -z % unit

section GapUp

variable {y z : ℤ} {unit : ℕ}

theorem gapUp_nonneg (z : ℤ) (h : 0 < unit) : 0 ≤ gapUp z unit :=
  Int.emod_nonneg _ (by omega)

theorem gapUp_lt (z : ℤ) (h : 0 < unit) : gapUp z unit < unit :=
  Int.emod_lt_of_pos _ (by omega)

/-- Only the remainder modulo the unit matters. -/
theorem gapUp_congr (h : y ≡ z [ZMOD unit]) : gapUp y unit = gapUp z unit := h.neg

theorem gapUp_of_dvd (h : (unit : ℤ) ∣ z) : gapUp z unit = 0 :=
  Int.emod_eq_zero_of_dvd (Int.dvd_neg.mpr h)

theorem dvd_add_gapUp (z : ℤ) (unit : ℕ) : (unit : ℤ) ∣ z + gapUp z unit := by
  -- Modulo the unit the gap is `-z`.
  have h : -z % unit ≡ -z [ZMOD unit] := Int.mod_modEq _ _
  apply Int.modEq_zero_iff_dvd.mp
  simpa [gapUp] using h.add_left z

theorem isLeast_add_gapUp (z : ℤ) (h : 0 < unit) :
    IsLeast {w : ℤ | z ≤ w ∧ (unit : ℤ) ∣ w} (z + gapUp z unit) := by
  refine ⟨⟨Int.le_add_of_nonneg_right (gapUp_nonneg z h), dvd_add_gapUp z unit⟩, ?_⟩
  rintro w ⟨hle, hdvd⟩
  -- A smaller multiple would be less than a unit away, and so no other one.
  by_contra hlt
  have hgap : (unit : ℤ) ∣ z + gapUp z unit - w := Int.dvd_sub (dvd_add_gapUp z unit) hdvd
  have hpos := Int.le_of_dvd (by omega) hgap
  have := gapUp_lt z h
  omega

/-- Natural numbers are rounded as integers are. -/
theorem cast_roundUp (n : ℕ) (h : 0 < unit) : (roundUp n unit : ℤ) = n + gapUp n unit := by
  -- Both sides are the least multiple from `n` on.
  have hleast : IsLeast {w : ℤ | n ≤ w ∧ (unit : ℤ) ∣ w} (roundUp n unit) := by
    refine ⟨⟨?_, ?_⟩, ?_⟩
    · exact_mod_cast le_roundUp n h
    · exact_mod_cast dvd_roundUp n unit
    · rintro w ⟨hle, hdvd⟩
      -- No integer from `n` on is negative.
      lift w to ℕ using by omega
      exact_mod_cast roundUp_le h (by exact_mod_cast hdvd) (by exact_mod_cast hle)
  exact hleast.unique (isLeast_add_gapUp n h)

end GapUp

/-! ## Rounding words -/

section

variable {align : UInt64} {k : ℕ}

/-- An alignment divides `2 ^ 64`. -/
theorem toNat_dvd_of_two_pow (h : align.toNat = 2 ^ k) : (align.toNat : ℤ) ∣ 2 ^ 64 := by
  have hk : 2 ^ k < 2 ^ 64 := h ▸ align.toNat_lt
  rw [h]
  exact_mod_cast pow_dvd_pow 2 ((Nat.pow_lt_pow_iff_right (by decide)).mp hk).le

/-- The word of an integer is rounded to the word of the integer rounded up. -/
theorem alignUp_ofInt (h : align.toNat = 2 ^ k) (z : ℤ) :
    alignUp (.ofInt z) align = .ofInt (z + gapUp z align.toNat) := by
  have hpos : 0 < align.toNat := h ▸ Nat.two_pow_pos k
  have hsame := toNat_ofInt_modEq z
  calc alignUp (.ofInt z) align
      = .ofNat (roundUp (UInt64.ofInt z).toNat align.toNat) := by rw [alignUp_eq_ofNat h, h]
    _ = .ofInt ((UInt64.ofInt z).toNat + gapUp (UInt64.ofInt z).toNat align.toNat) := by
        rw [← ofInt_natCast, cast_roundUp _ hpos]
    -- The integer that was put in and the one that stands for its word have the same gap.
    _ = .ofInt ((UInt64.ofInt z).toNat + gapUp z align.toNat) := by
        rw [gapUp_congr (hsame.of_dvd (toNat_dvd_of_two_pow h))]
    _ = .ofInt (z + gapUp z align.toNat) := ofInt_congr (hsame.add_right _)

theorem alignUp_eq_ofInt (h : align.toNat = 2 ^ k) (v : UInt64) :
    alignUp v align = .ofInt (v.toNat + gapUp v.toNat align.toNat) := by
  rw [← alignUp_ofInt h, ofInt_toNat]

theorem toNat_alignUp_modEq (h : align.toNat = 2 ^ k) (v : UInt64) :
    ((alignUp v align).toNat : ℤ) ≡ v.toNat + gapUp v.toNat align.toNat [ZMOD 2 ^ 64] := by
  rw [alignUp_eq_ofInt h]
  exact toNat_ofInt_modEq _

/-- A multiple of the alignment stays one when it wraps around. -/
theorem dvd_toNat_alignUp (h : align.toNat = 2 ^ k) (v : UInt64) :
    align.toNat ∣ (alignUp v align).toNat := by
  have hdvd : (v.toNat + gapUp v.toNat align.toNat : ℤ) ≡ 0 [ZMOD align.toNat] :=
    Int.modEq_zero_iff_dvd.mpr (dvd_add_gapUp _ _)
  have hmod := (toNat_alignUp_modEq h v).of_dvd (toNat_dvd_of_two_pow h)
  exact_mod_cast Int.modEq_zero_iff_dvd.mp (hmod.trans hdvd)

/-- The bytes between an address and the rounded one are counted modulo `2 ^ 64`. -/
theorem alignUp_sub (h : align.toNat = 2 ^ k) (v : UInt64) :
    alignUp v align - v = .ofInt (gapUp v.toNat align.toNat) := by
  rw [alignUp_eq_ofInt h, UInt64.ofInt_add, ofInt_toNat]
  rw [UInt64.add_comm, UInt64.add_sub_cancel]

theorem alignUp_alignUp (h : align.toNat = 2 ^ k) (v : UInt64) :
    alignUp (alignUp v align) align = alignUp v align := by
  have hround := alignUp_ofInt h (v.toNat + gapUp v.toNat align.toNat)
  rw [gapUp_of_dvd (dvd_add_gapUp _ _), Int.add_zero] at hround
  rwa [alignUp_eq_ofInt h v]

theorem alignUp_add_mul (h : align.toNat = 2 ^ k) (v : UInt64) (m : ℤ) :
    alignUp (.ofInt (v.toNat + m * align.toNat)) align =
      .ofInt ((alignUp v align).toNat + m * align.toNat) := by
  -- The integer may be negative or beyond any word, but its gap is that of the address.
  have hgap : gapUp (v.toNat + m * align.toNat) align.toNat = gapUp v.toNat align.toNat :=
    gapUp_congr (by simp [Int.ModEq])
  rw [alignUp_ofInt h, hgap, Int.add_right_comm]
  exact ofInt_congr ((toNat_alignUp_modEq h v).symm.add_right _)

/-- Rounding an address up to a power of two is exact modulo `2 ^ 64`. With `r` the least multiple
from the address on, taken over all integers, the rounded address is `r` if that is an address at
all, and zero otherwise. It is a multiple of the alignment, less than one alignment behind the
address if the bytes between are counted modulo `2 ^ 64`, and it stays as it is when it is rounded
once more. Moving the address by any number of alignments, forwards or backwards and over either
end of the address space, moves the rounded address by as much. -/
theorem alignUp_exact (h : align.toNat = 2 ^ k) (v : UInt64) :
    align.toNat ∣ (alignUp v align).toNat ∧
      (∃ r : ℤ, IsLeast {z : ℤ | v.toNat ≤ z ∧ (align.toNat : ℤ) ∣ z} r ∧
        ((alignUp v align).toNat : ℤ) = r % 2 ^ 64 ∧
        (r < 2 ^ 64 → ((alignUp v align).toNat : ℤ) = r) ∧
        (2 ^ 64 ≤ r → alignUp v align = 0)) ∧
      alignUp v align - v < align ∧
      alignUp (alignUp v align) align = alignUp v align ∧
      ∀ m : ℤ, alignUp (.ofInt (v.toNat + m * align.toNat)) align =
        .ofInt ((alignUp v align).toNat + m * align.toNat) := by
  have hpos : 0 < align.toNat := h ▸ Nat.two_pow_pos k
  have hleast := isLeast_add_gapUp v.toNat hpos
  have hmod : ((alignUp v align).toNat : ℤ) = (v.toNat + gapUp v.toNat align.toNat) % 2 ^ 64 := by
    rw [alignUp_eq_ofInt h, toNat_ofInt]
  refine ⟨dvd_toNat_alignUp h v, ⟨_, hleast, hmod, fun hlt => ?_, fun hge => ?_⟩, ?_,
    alignUp_alignUp h v, alignUp_add_mul h v⟩
  · -- The least multiple is not negative, so it is its own remainder.
    have hnonneg := gapUp_nonneg v.toNat hpos
    rw [hmod, Int.emod_eq_of_lt (by omega) hlt]
  · -- The end of the address space is a multiple behind the address, so it is the least one.
    have hle := hleast.2 ⟨by exact_mod_cast v.toNat_lt.le, toNat_dvd_of_two_pow h⟩
    rw [alignUp_eq_ofInt h, Int.le_antisymm hle hge]
    rfl
  · have hlt := gapUp_lt v.toNat hpos
    have hsize := align.toNat_lt
    rw [alignUp_sub h, UInt64.lt_iff_toNat_lt, ← Int.ofNat_lt, toNat_ofInt,
      Int.emod_eq_of_lt (gapUp_nonneg _ hpos) (by omega)]
    exact hlt

/-- Three bytes below the end of the address space an address is rounded over that end. Moved five
alignments back, it is rounded to the fifth multiple below the end. -/
theorem alignUp_exact_wrapping :
    let v : UInt64 := 0xfffffffffffffffd
    (8 : UInt64).toNat = 2 ^ 3 ∧ IsLeast {z : ℤ | v.toNat ≤ z ∧ (8 : ℤ) ∣ z} (2 ^ 64) ∧
      alignUp v 8 = 0 ∧ alignUp v 8 - v = 3 ∧
      alignUp (.ofInt (v.toNat + -5 * 8)) 8 = 0xffffffffffffffd8 := by
  intro v
  have hv : v.toNat = 2 ^ 64 - 3 := rfl
  have hleast : IsLeast {z : ℤ | v.toNat ≤ z ∧ (8 : ℤ) ∣ z} (2 ^ 64) := by
    constructor
    · rw [Set.mem_ofPred, hv]
      decide
    · rintro w ⟨hle, hdvd⟩
      rw [hv] at hle
      omega
  have hpow : (8 : UInt64).toNat = 2 ^ 3 := rfl
  obtain ⟨-, ⟨r, hr, -, -, htop⟩, -, -, hmove⟩ := alignUp_exact hpow v
  have hzero : alignUp v 8 = 0 := htop (hr.unique hleast).ge
  refine ⟨hpow, hleast, hzero, ?_, ?_⟩
  · rw [hzero]
    decide
  · refine (hmove (-5)).trans ?_
    rw [hzero]
    decide

end

end CallLayout.Word

import CallLayout.Word
import Mathlib.Algebra.Order.Ring.Nat
import Mathlib.Data.Nat.Notation

/-!
# Rounding and word arithmetic in natural numbers

Words are compared with natural numbers through `UInt64.toNat`. This module gives the exact
rounding of a natural number, and says what the operations of `CallLayout.Word` compute:

* `toNat_alignUp`: rounding an address up is exact rounding modulo `2 ^ 64`;
* `toNat_unitsFor`: the number of units that hold `n` is exact;
* `add_eq_ok`, `sub_eq_ok` and `nextMultiple_eq_ok`: when a checked operation gives a result,
  and which one.
-/

namespace CallLayout.Word

/-- The least multiple of `unit` that is at least `n`. -/
def roundUp (n unit : ℕ) : ℕ := (n + (unit - 1)) / unit * unit

theorem dvd_roundUp (n unit : ℕ) : unit ∣ roundUp n unit := Nat.dvd_mul_left _ _

theorem le_roundUp (n : ℕ) {unit : ℕ} (h : 0 < unit) : n ≤ roundUp n unit := by
  have hdiv := Nat.div_add_mod (n + (unit - 1)) unit
  have hmod := Nat.mod_lt (n + (unit - 1)) h
  rw [roundUp, Nat.mul_comm]
  omega

theorem roundUp_le {n unit m : ℕ} (h : 0 < unit) (hdvd : unit ∣ m) (hle : n ≤ m) :
    roundUp n unit ≤ m := by
  obtain ⟨q, rfl⟩ := hdvd
  rw [roundUp, Nat.mul_comm unit q]
  refine Nat.mul_le_mul_right unit ?_
  -- The quotient is at most `q`, since what is divided stays below the multiple after `q`.
  have hlt : n + (unit - 1) < (q + 1) * unit := by
    rw [Nat.add_one_mul, Nat.mul_comm]
    omega
  exact Nat.le_of_lt_succ (Nat.div_lt_of_lt_mul (by rwa [Nat.mul_comm]))

theorem roundUp_of_dvd {n unit : ℕ} (h : 0 < unit) (hdvd : unit ∣ n) : roundUp n unit = n :=
  Nat.le_antisymm (roundUp_le h hdvd (Nat.le_refl n)) (le_roundUp n h)

theorem roundUp_mono {n m : ℕ} (h : n ≤ m) (unit : ℕ) : roundUp n unit ≤ roundUp m unit :=
  Nat.mul_le_mul_right unit (Nat.div_le_div_right (Nat.add_le_add_right h _))

/-- A quotient with a remainder is rounded up to the next number. -/
private theorem add_pred_div_of_mod_ne_zero {n unit : ℕ} (h : 0 < unit) (hmod : n % unit ≠ 0) :
    (n + (unit - 1)) / unit = n / unit + 1 := by
  have hdiv := Nat.div_add_mod n unit
  have hlt := Nat.mod_lt n h
  refine Nat.div_eq_of_lt_le ?_ ?_
  · rw [Nat.add_one_mul, Nat.mul_comm]
    omega
  · rw [Nat.add_one_mul, Nat.add_one_mul, Nat.mul_comm]
    omega

theorem roundUp_of_mod_ne_zero {n unit : ℕ} (h : 0 < unit) (hmod : n % unit ≠ 0) :
    roundUp n unit = n + (unit - n % unit) := by
  have hdiv := Nat.div_add_mod n unit
  have hlt := Nat.mod_lt n h
  rw [roundUp, add_pred_div_of_mod_ne_zero h hmod, Nat.add_one_mul, Nat.mul_comm]
  omega

/-- Clearing the low `k` bits of a word rounds it down to a multiple of `2 ^ k`. -/
private theorem toNat_and_not_mask (word mask : UInt64) (k : ℕ) (h : mask.toNat = 2 ^ k - 1) :
    (word &&& ~~~mask).toNat = word.toNat / 2 ^ k * 2 ^ k := by
  -- The kept bits and the cleared ones are disjoint, so the two parts add up to the word.
  have hsplit : (word &&& ~~~mask) + (word &&& mask) = word := by
    apply UInt64.toBitVec_inj.mp
    rw [UInt64.toBitVec_add, BitVec.add_eq_or_of_and_eq_zero]
    · ext i hi
      simp only [UInt64.toBitVec_and, UInt64.toBitVec_not, BitVec.getElem_or,
        BitVec.getElem_and, BitVec.getElem_not]
      cases mask.toBitVec[i] <;> simp
    · ext i hi
      simp only [UInt64.toBitVec_and, UInt64.toBitVec_not, BitVec.getElem_and,
        BitVec.getElem_not, BitVec.getElem_zero]
      cases mask.toBitVec[i] <;> simp
  have hlow : (word &&& mask).toNat = word.toNat % 2 ^ k := by
    rw [UInt64.toNat_and, h, Nat.and_two_pow_sub_one_eq_mod]
  have hkept := UInt64.add_sub_cancel (word &&& ~~~mask) (word &&& mask)
  rw [hsplit] at hkept
  have hle : (word &&& mask) ≤ word := by
    rw [UInt64.le_iff_toNat_le, hlow]
    exact Nat.mod_le _ _
  rw [← hkept, UInt64.toNat_sub_of_le _ _ hle, hlow]
  have hdiv := Nat.div_add_mod word.toNat (2 ^ k)
  rw [Nat.mul_comm]
  omega

/-- Rounding down to a multiple of a power of two commutes with reduction to a word. -/
private theorem mod_div_mul_two_pow {k : ℕ} (h : k < 64) (n : ℕ) :
    n % 2 ^ 64 / 2 ^ k * 2 ^ k = n / 2 ^ k * 2 ^ k % 2 ^ 64 := by
  have hsize : 2 ^ 64 = 2 ^ k * 2 ^ (64 - k) := by
    rw [← Nat.pow_add, Nat.add_sub_cancel' h.le]
  rw [hsize, Nat.mod_mul_right_div_self, Nat.mul_comm (2 ^ k) (2 ^ (64 - k)),
    Nat.mul_mod_mul_right]

/-- Rounding an address up to a power of two is exact rounding modulo `2 ^ 64`. -/
theorem toNat_alignUp {value align : UInt64} {k : ℕ} (h : align.toNat = 2 ^ k) :
    (alignUp value align).toNat = roundUp value.toNat (2 ^ k) % 2 ^ 64 := by
  have hk : k < 64 := by
    refine (Nat.pow_lt_pow_iff_right (by decide : 1 < 2)).mp ?_
    rw [← h]
    exact align.toNat_lt
  have hmask : (align - 1).toNat = 2 ^ k - 1 := by
    rw [UInt64.toNat_sub_of_le, h]
    · rfl
    · rw [UInt64.le_iff_toNat_le, h]
      exact Nat.one_le_two_pow
  rw [alignUp, toNat_and_not_mask _ _ k hmask, UInt64.toNat_add, hmask,
    mod_div_mul_two_pow hk, roundUp]

private theorem mod_eq_zero_iff (n unit : UInt64) :
    n % unit = 0 ↔ n.toNat % unit.toNat = 0 := by
  rw [← UInt64.toNat_inj, UInt64.toNat_mod, UInt64.toNat_zero]

/-- An address rounded up is the word of its exact rounding. -/
theorem alignUp_eq_ofNat {value align : UInt64} {k : ℕ} (h : align.toNat = 2 ^ k) :
    alignUp value align = UInt64.ofNat (roundUp value.toNat (2 ^ k)) := by
  rw [← UInt64.toNat_inj, toNat_alignUp h, UInt64.toNat_ofNat']

/-- The number of units that hold `n` is the exact quotient, rounded up. -/
theorem toNat_unitsFor {n unit : UInt64} (h : 0 < unit.toNat) :
    (unitsFor n unit).toNat = (n.toNat + (unit.toNat - 1)) / unit.toNat := by
  rw [unitsFor]
  split
  next hexact =>
    rw [mod_eq_zero_iff] at hexact
    refine Nat.eq_of_mul_eq_mul_right h ?_
    change _ = roundUp n.toNat unit.toNat
    rw [UInt64.toNat_div, roundUp_of_dvd h (Nat.dvd_of_mod_eq_zero hexact),
      Nat.div_mul_cancel (Nat.dvd_of_mod_eq_zero hexact)]
  next hpart =>
    rw [mod_eq_zero_iff] at hpart
    -- A unit of one byte leaves no remainder, so the quotient is far from the end of a word.
    have hunit : 2 ≤ unit.toNat := by
      by_contra hlt
      rw [show unit.toNat = 1 by omega, Nat.mod_one] at hpart
      exact hpart rfl
    have hsmall : n.toNat / unit.toNat < 2 ^ 63 := by
      have hle : n.toNat / unit.toNat ≤ n.toNat / 2 := Nat.div_le_div_left hunit (by decide)
      have hlt := n.toNat_lt
      omega
    rw [UInt64.toNat_add, UInt64.toNat_div, UInt64.toNat_one, Nat.mod_eq_of_lt (by omega),
      add_pred_div_of_mod_ne_zero h hpart]

theorem toNat_min (a b : UInt64) : (min a b).toNat = min a.toNat b.toNat := by
  change (if a ≤ b then a else b).toNat = if a.toNat ≤ b.toNat then a.toNat else b.toNat
  rw [apply_ite UInt64.toNat]
  rfl

/-! ## Checked operations -/

/-- A checked sum that fits a word is the sum. -/
theorem add_eq_ok {a b : UInt64} (h : a.toNat + b.toNat < 2 ^ 64) : add a b = .ok (a + b) :=
  if_pos h

theorem exists_add_eq_ok {a b : UInt64} (h : a.toNat + b.toNat < 2 ^ 64) :
    ∃ c, add a b = .ok c ∧ c.toNat = a.toNat + b.toNat :=
  ⟨a + b, add_eq_ok h, (UInt64.toNat_add a b).trans (Nat.mod_eq_of_lt h)⟩

/-- A checked sum that does not fit a word is an overflow. -/
theorem add_eq_error {a b : UInt64} (h : 2 ^ 64 ≤ a.toNat + b.toNat) :
    add a b = .error .addition :=
  if_neg (Nat.not_lt.mpr h)

/-- A checked sum that gives a result is exact. -/
theorem toNat_of_add_eq_ok {a b c : UInt64} (h : add a b = .ok c) :
    c.toNat = a.toNat + b.toNat := by
  unfold add at h
  split at h
  next hfits =>
    cases h
    rw [UInt64.toNat_add, Nat.mod_eq_of_lt hfits]
  next => cases h

theorem add_ofNat_eq_ok {a b : ℕ} (h : a + b < 2 ^ 64) :
    add (.ofNat a) (.ofNat b) = .ok (.ofNat (a + b)) := by
  rw [add_eq_ok, UInt64.ofNat_add]
  rw [UInt64.toNat_ofNat', UInt64.toNat_ofNat']
  omega

/-- A checked difference that is not negative is the difference. -/
theorem sub_eq_ok {a b : UInt64} (h : b ≤ a) : sub a b = .ok (a - b) :=
  if_pos h

theorem exists_sub_eq_ok {a b : UInt64} (h : b ≤ a) :
    ∃ c, sub a b = .ok c ∧ c.toNat = a.toNat - b.toNat :=
  ⟨a - b, sub_eq_ok h, UInt64.toNat_sub_of_le a b h⟩

/-- The next multiple, if it fits a word, is exact. -/
theorem nextMultiple_eq_ok {n m : UInt64} (h : 0 < m.toNat)
    (hfit : roundUp n.toNat m.toNat < 2 ^ 64) :
    nextMultiple n m = .ok (UInt64.ofNat (roundUp n.toNat m.toNat)) := by
  rw [nextMultiple]
  split
  next hexact =>
    rw [mod_eq_zero_iff] at hexact
    rw [roundUp_of_dvd h (Nat.dvd_of_mod_eq_zero hexact), UInt64.ofNat_toNat]
  next hpart =>
    rw [mod_eq_zero_iff] at hpart
    have hlt := Nat.mod_lt n.toNat h
    have hgap : (m - n % m).toNat = m.toNat - n.toNat % m.toNat := by
      rw [UInt64.toNat_sub_of_le, UInt64.toNat_mod]
      rw [UInt64.le_iff_toNat_le, UInt64.toNat_mod]
      exact hlt.le
    -- The gap to the next multiple is added with a check, which `hfit` passes.
    rw [roundUp_of_mod_ne_zero h hpart] at hfit ⊢
    rw [add_eq_ok (by rwa [hgap]), ← hgap, UInt64.ofNat_add, UInt64.ofNat_toNat,
      UInt64.ofNat_toNat]

theorem exists_nextMultiple_eq_ok {n m : UInt64} (h : 0 < m.toNat)
    (hfit : roundUp n.toNat m.toNat < 2 ^ 64) :
    ∃ c, nextMultiple n m = .ok c ∧ c.toNat = roundUp n.toNat m.toNat :=
  ⟨_, nextMultiple_eq_ok h hfit, UInt64.toNat_ofNat_of_lt' hfit⟩

end CallLayout.Word

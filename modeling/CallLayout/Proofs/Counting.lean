import CallLayout.Proofs.Rounding
import CallLayout.Proofs.Walk
import Mathlib.Algebra.BigOperators.Group.List.Basic
import Mathlib.Algebra.Order.Ring.Nat

/-!
# Conventions that count

Some positions are nothing but a number, of registers or of bytes. A convention *counts* if it adds
the size of each value to that number and checks that the sum fits a word (`Convention.Counts`).
Checking each sum on the way is then the same as checking the last one, as sizes are not negative:
values are placed exactly if the sum of all their sizes fits (`Counts.placeItems`). If it does not,
one of the values is the first to go over (`exists_overflowing_iff`).
-/

namespace CallLayout.Convention

variable {P R A : Type}

/-- The position at a number, if the number fits a word. -/
def checked (position : ℕ → P) (n : ℕ) : Except Overflow P :=
  if n < 2 ^ 64 then .ok (position n) else .error .addition

section Checked

variable {position : ℕ → P} {n : ℕ}

theorem checked_of_lt (h : n < 2 ^ 64) : checked position n = .ok (position n) := if_pos h

theorem checked_of_le (h : 2 ^ 64 ≤ n) : checked position n = .error .addition :=
  if_neg (Nat.not_lt.mpr h)

theorem checked_eq_error_iff {cause : Overflow} :
    checked position n = .error cause ↔ cause = .addition ∧ 2 ^ 64 ≤ n := by
  rw [checked]
  split
  next hfits => exact ⟨nofun, fun h => absurd hfits (Nat.not_lt.mpr h.2)⟩
  next hover =>
    constructor
    · rintro ⟨⟩
      exact ⟨rfl, Nat.not_lt.mp hover⟩
    · rintro ⟨rfl, -⟩
      rfl

end Checked

/-- A checked sum of words checks the exact sum. -/
theorem map_add_ofNat (position : UInt64 → P) {n : ℕ} (hn : n < 2 ^ 64) (b : UInt64) :
    (Word.add (.ofNat n) b).map position =
      checked (fun k => position (.ofNat k)) (n + b.toNat) := by
  by_cases hfits : n + b.toNat < 2 ^ 64
  · have hadd : Word.add (.ofNat n) b = .ok (.ofNat (n + b.toNat)) := by
      simpa using Word.add_ofNat_eq_ok hfits
    rw [checked_of_lt hfits, hadd]
    rfl
  · have hover : 2 ^ 64 ≤ (UInt64.ofNat n).toNat + b.toNat := by
      rw [UInt64.toNat_ofNat_of_lt' hn]
      exact Nat.not_lt.mp hfits
    rw [checked_of_le (Nat.not_lt.mp hfits), Word.add_eq_error hover]
    rfl

/-- Placing a value adds its size to the number of the position, with a check. -/
structure Counts (c : Convention P R A) (registers : Registers) (position : ℕ → P)
    (size : Item R A → ℕ) : Prop where
  place : ∀ {n}, n < 2 ^ 64 → ∀ item,
    c.place registers item (position n) = checked position (n + size item)

/-- Placing some values adds their sizes, with one check at the end. -/
theorem Counts.placeItems {c : Convention P R A} {registers : Registers} {position : ℕ → P}
    {size : Item R A → ℕ} (hcounts : c.Counts registers position size) {n : ℕ} (hn : n < 2 ^ 64)
    (items : List (Item R A)) :
    c.placeItems registers items (position n) = checked position (n + (items.map size).sum) := by
  induction items generalizing n with
  | nil => exact (checked_of_lt hn).symm
  | cons item items ih =>
    rw [Convention.placeItems, hcounts.place hn, List.map_cons, List.sum_cons, ← Nat.add_assoc]
    by_cases hfits : n + size item < 2 ^ 64
    · rw [checked_of_lt hfits]
      exact ih hfits
    · -- Once a sum is too large, so are all that follow.
      have hover := Nat.not_lt.mp hfits
      rw [checked_of_le hover, checked_of_le (Nat.le_add_right_of_le hover)]
      rfl

/-- Sizes do not fit a word together exactly if one of the values, taken in order, is the first to
go over. -/
theorem exists_overflowing_iff {size : Item R A → ℕ} {n : ℕ} (hn : n < 2 ^ 64)
    {items : List (Item R A)} :
    (∃ placed item rest, items = placed ++ item :: rest ∧
        n + (placed.map size).sum < 2 ^ 64 ∧ 2 ^ 64 ≤ n + (placed.map size).sum + size item) ↔
      2 ^ 64 ≤ n + (items.map size).sum := by
  constructor
  · rintro ⟨placed, item, rest, rfl, -, hover⟩
    simp only [List.map_append, List.map_cons, List.sum_append, List.sum_cons]
    omega
  · intro h
    induction items generalizing n with
    | nil => exact absurd hn (Nat.not_lt.mpr h)
    | cons item items ih =>
      rw [List.map_cons, List.sum_cons, ← Nat.add_assoc] at h
      by_cases hfits : n + size item < 2 ^ 64
      · obtain ⟨placed, first, rest, rfl, hplaced, hover⟩ := ih hfits h
        refine ⟨item :: placed, first, rest, rfl, ?_⟩
        rw [List.map_cons, List.sum_cons, ← Nat.add_assoc]
        exact ⟨hplaced, hover⟩
      · exact ⟨[], item, items, rfl, hn, Nat.not_lt.mp hfits⟩

end CallLayout.Convention

import CallLayout.Proofs.Aapcs32.Cursor

/-!
# Alignment under the Arm convention

Whatever the stack pointer is and whatever has been placed, the stack begins and ends at multiples
of four (`Position.Aligned`), and a 64-bit scalar is placed in a free pair of registers that begins
with an even one, or in eight bytes of stack that begin at a multiple of eight
(`Position.PlacesDoubleWord`). Both are read off the cursor, whose stack begins at a multiple of
four and which stays at word boundaries. The main result is `placement_aligned`.
-/

namespace CallLayout.Aapcs32

open Word

namespace Position

/-- The stack of the position begins at the address `base`, a multiple of four, and ends at one
too. -/
structure Aligned (p : Position) (base : UInt64) : Prop where
  stackBase : p.stackBase = base
  dvd_stackBase : 4 ∣ p.stackBase.toNat
  dvd_nextStacked : 4 ∣ p.nextStacked.toNat

/-- From the position `p` to the position `q` a 64-bit scalar is placed. -/
inductive PlacesDoubleWord (p q : Position) : Prop where
  /-- It takes the pair of registers below the next one, which begins with an even one and was
  free. -/
  | inRegisters : q.nextStacked = p.nextStacked → q.nextRegister = 2 ∨ q.nextRegister = 4 →
      p.nextRegister.toNat ≤ q.nextRegister.toNat - 2 → PlacesDoubleWord p q
  /-- It takes the eight bytes below the end of the stack, which ends at a multiple of eight, and
  at most a word in front of them is left out. No pair of registers was free, and none is. -/
  | inStack : 3 ≤ p.nextRegister → q.nextRegister = 4 → 8 ∣ q.nextStacked.toNat →
      q.nextStacked - p.nextStacked = 8 ∨ q.nextStacked - p.nextStacked = 12 →
      PlacesDoubleWord p q

section Cursor

variable {base : UInt64} {v : ℕ}

theorem aligned_ofCursor (hbase : 4 ∣ base.toNat) (hv : 4 ∣ v) :
    (ofCursor base v).Aligned base where
  stackBase := rfl
  dvd_stackBase := hbase
  dvd_nextStacked := by
    rw [(atCursor_ofCursor base v).nextStacked]
    omega

/-- A cursor in the first two registers, or just behind them, goes behind the next pair. -/
theorem placesDoubleWord_ofCursor_of_le (hv : 4 ∣ v) (hpair : v ≤ 8) (phase : ℕ) :
    (ofCursor base v).PlacesDoubleWord (ofCursor base (advanceDoubleWord phase v)) := by
  have hadvance : advanceDoubleWord phase v = roundUp v 8 + 8 := if_pos hpair
  have hround : roundUp v 8 = 0 ∨ roundUp v 8 = 8 := by
    rw [roundUp]
    omega
  have hle : v ≤ roundUp v 8 := le_roundUp v (by decide)
  have hcursor := atCursor_ofCursor base v
  have hcursor' := atCursor_ofCursor base (roundUp v 8 + 8)
  rw [hadvance]
  refine .inRegisters (UInt64.toNat_inj.mp ?_) ?_ ?_
  · rw [hcursor.nextStacked, hcursor'.nextStacked]
    omega
  · rw [← UInt64.toNat_inj, ← UInt64.toNat_inj, hcursor'.nextRegister]
    change _ = 2 ∨ _ = 4
    omega
  · rw [hcursor.nextRegister, hcursor'.nextRegister]
    omega

/-- A cursor further on goes to the stack, where it stands at a multiple of eight behind the
scalar. -/
theorem placesDoubleWord_ofCursor_of_lt (hbase : 4 ∣ base.toNat) (hv : 4 ∣ v) (hstacked : 8 < v) :
    (ofCursor base v).PlacesDoubleWord
      (ofCursor base (advanceDoubleWord (base.toNat % 8) v)) := by
  have hadvance : advanceDoubleWord (base.toNat % 8) v =
      alignedFrom (base.toNat % 8) (max v 16) + 8 := if_neg hstacked.not_ge
  have hcursor := atCursor_ofCursor base v
  have hcursor' := atCursor_ofCursor base (alignedFrom (base.toNat % 8) (max v 16) + 8)
  rw [alignedFrom] at hadvance hcursor'
  rw [hadvance]
  refine .inStack ?_ ?_ ?_ ?_
  · rw [UInt64.le_iff_toNat_le, hcursor.nextRegister]
    change 3 ≤ _
    omega
  · rw [← UInt64.toNat_inj, hcursor'.nextRegister]
    change _ = 4
    omega
  · rw [hcursor'.nextStacked]
    omega
  · -- The padding is what the alignment leaves out, and the end of the stack may wrap around.
    rw [← UInt64.toNat_inj, ← UInt64.toNat_inj, UInt64.toNat_sub, hcursor.nextStacked,
      hcursor'.nextStacked]
    change _ = 8 ∨ _ = 12
    omega

theorem placesDoubleWord_ofCursor (hbase : 4 ∣ base.toNat) (hv : 4 ∣ v) :
    (ofCursor base v).PlacesDoubleWord
      (ofCursor base (advanceDoubleWord (base.toNat % 8) v)) := by
  rcases Nat.lt_or_ge 8 v with hstacked | hpair
  · exact placesDoubleWord_ofCursor_of_lt hbase hv hstacked
  · exact placesDoubleWord_ofCursor_of_le hv hpair _

end Cursor

end Position

/-- The Arm convention aligns what it places. Whatever results and arguments have been placed, in
whatever order and from whatever stack pointer, the stack begins where it did at the start, at a
multiple of four, and ends at a multiple of four; and from there a 64-bit scalar, which can always
be placed, takes a free pair of registers that begins with an even one, or eight bytes of stack
that begin at a multiple of eight with at most one word left out in front of them. -/
theorem placement_aligned (m : Machine) (items : List (Item ResultType ValueType)) :
    ∃ p, aapcs32.placeItems m.registers items (aapcs32.start m) = .ok p ∧
      p.Aligned (aapcs32.start m).stackBase ∧
      ∀ type, type = Scalar.u64 ∨ type = Scalar.i64 →
        ∃ q, aapcs32.argument m.registers (.scalar type) p = .ok q ∧ p.PlacesDoubleWord q := by
  have hcursor : 4 ∣ cursor (phase m) items := dvd_cursor (dvd_phase m) items
  refine ⟨_, placeItems_start m items, Position.aligned_ofCursor (dvd_stackBase m) hcursor,
    fun type htype => ⟨_, ?_, Position.placesDoubleWord_ofCursor (dvd_stackBase m) hcursor⟩⟩
  rcases htype with rfl | rfl <;> exact Position.takeDoubleWord_ofCursor hcursor

/-- Behind a split aggregate at the top of the address space a word is left out, and the scalar is
placed behind the wrap. -/
theorem placement_aligned_wrapping :
    let m : Machine := { Machine.zero with stackPointer := 0xfffffffffffffff5 }
    let items : List (Item ResultType ValueType) := [.argument (.blob 12), .argument (.blob 8)]
    ∃ p q, aapcs32.placeItems m.registers items (aapcs32.start m) = .ok p ∧
      p.Aligned 0xfffffffffffffff8 ∧ p.nextStacked = 0xfffffffffffffffc ∧
      aapcs32.argument m.registers (.scalar .i64) p = .ok q ∧ p.PlacesDoubleWord q ∧
      q.nextStacked = 8 := by
  intro m items
  obtain ⟨p, hp, haligned, hdouble⟩ := placement_aligned m items
  obtain ⟨q, hq, hplaces⟩ := hdouble .i64 (.inr rfl)
  have hbase : (aapcs32.start m).stackBase = 0xfffffffffffffff8 := by decide
  rw [hbase] at haligned
  have hreached : aapcs32.placeItems m.registers items (aapcs32.start m) =
      .ok ⟨4, 0xfffffffffffffffc, 0xfffffffffffffff8⟩ := by decide
  obtain rfl := Except.ok.inj (hp.symm.trans hreached)
  have hscalar : aapcs32.argument m.registers (.scalar .i64)
      ⟨4, 0xfffffffffffffffc, 0xfffffffffffffff8⟩ = .ok ⟨4, 8, 0xfffffffffffffff8⟩ := by decide
  obtain rfl := Except.ok.inj (hq.symm.trans hscalar)
  exact ⟨_, _, hp, haligned, rfl, hq, hplaces, rfl⟩

end CallLayout.Aapcs32

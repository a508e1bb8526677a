import CallLayout.Proofs.Aapcs32.Report
import Mathlib.Data.Nat.Find

/-!
# Stacks that are aligned differently

Two machines place the same values, one with its stack at a multiple of eight, the other with its
stack four bytes behind one. The only rule that looks at an address is the one for a 64-bit scalar
that finds no pair of registers (`StacksDoubleWord`). Up to the first such value the two cursors
are equal (`cursor_take_eq`). There one of them is padded by a word and the other is not
(`advance_doubleWord_add_four`), and from then on both stand at the same address modulo eight, so
that they stay four bytes apart (`cursor_take_add_four`).

The main result is `misaligned_stackUsed`, the comparison of the stack bytes handed out after every
step of the two placements.
-/

namespace CallLayout.Aapcs32

open Word

/-- The value is an argument of a 64-bit scalar type. -/
def IsDoubleWord : Item ResultType ValueType → Prop
  | .argument (.scalar .u64) | .argument (.scalar .i64) => True
  | _ => False

instance : DecidablePred IsDoubleWord := fun item =>
  match item with
  | .argument (.scalar .u64) | .argument (.scalar .i64) => .isTrue trivial
  | .result _ | .argument (.blob _) | .argument (.scalar .u8) | .argument (.scalar .u16)
  | .argument (.scalar .u32) | .argument (.scalar .i32) | .argument (.scalar .guestPtr) =>
    .isFalse id

theorem advance_of_isDoubleWord {item : Item ResultType ValueType} (h : IsDoubleWord item)
    (phase v : ℕ) : advance phase item v = advanceDoubleWord phase v := by
  match item with
  | .argument (.scalar .u64) | .argument (.scalar .i64) => rfl

/-- The value is a 64-bit scalar that finds no even pair of registers and goes to the stack. -/
def StacksDoubleWord (item : Item ResultType ValueType) (p : Position) : Prop :=
  IsDoubleWord item ∧ 2 < p.nextRegister

/-- A value is stacked as a 64-bit scalar exactly if the cursor has passed the last even pair. -/
theorem stacksDoubleWord_ofCursor_iff {base : UInt64} {v : ℕ} (hv : 4 ∣ v)
    (item : Item ResultType ValueType) :
    StacksDoubleWord item (.ofCursor base v) ↔ IsDoubleWord item ∧ 8 < v := by
  refine and_congr_right fun _ => ?_
  rw [UInt64.lt_iff_toNat_lt, (Position.atCursor_ofCursor base v).nextRegister]
  change 2 < min 4 (v / 4) ↔ 8 < v
  omega

/-! ## One step -/

/-- Only a stacked 64-bit scalar is placed by its address. -/
theorem advance_congr {item : Item ResultType ValueType} {v : ℕ} (h : IsDoubleWord item → v ≤ 8)
    (phase phase' : ℕ) : advance phase item v = advance phase' item v := by
  match item with
  | .argument (.scalar .u64) | .argument (.scalar .i64) =>
    have hpair : v ≤ 8 := h trivial
    change advanceDoubleWord phase v = advanceDoubleWord phase' v
    rw [advanceDoubleWord, advanceDoubleWord, if_pos hpair, if_pos hpair]
  | .result .unit | .result (.value (.scalar _)) | .result (.value (.blob _))
  | .argument (.scalar .u8) | .argument (.scalar .u16) | .argument (.scalar .u32)
  | .argument (.scalar .i32) | .argument (.scalar .guestPtr) | .argument (.blob _) => rfl

/-- A 64-bit scalar that is stacked at the same cursor in two stacks is padded in the one whose
address is not a multiple of eight there. -/
theorem advance_doubleWord_add_four {item : Item ResultType ValueType} {v : ℕ}
    (hitem : IsDoubleWord item) (hlt : 8 < v) {phase phase' : ℕ}
    (hphase : phase % 8 = (phase' + 4) % 8) (haligned : (v - 16 + phase) % 8 = 0) :
    advance phase' item v = advance phase item v + 4 := by
  rw [advance_of_isDoubleWord hitem, advance_of_isDoubleWord hitem, advanceDoubleWord,
    advanceDoubleWord, if_neg hlt.not_ge, if_neg hlt.not_ge, alignedFrom, alignedFrom]
  -- The cursor leaves the registers first, and then it is as many bytes into the stack.
  have hstack : max v 16 = 16 + (v - 16) := by omega
  rw [hstack]
  omega

/-- A stacked 64-bit scalar ends in the stack. -/
theorem le_advance_of_doubleWord {item : Item ResultType ValueType} {v : ℕ}
    (hitem : IsDoubleWord item) (hlt : 8 < v) (phase : ℕ) : 16 ≤ advance phase item v := by
  rw [advance_of_isDoubleWord hitem, advanceDoubleWord, if_neg hlt.not_ge, alignedFrom]
  omega

/-- Cursors in the stack that are four bytes apart, and at the same address modulo eight, are so
after a value. -/
theorem advance_add_four {phase phase' : ℕ} (hphase : phase % 8 = (phase' + 4) % 8) {v : ℕ}
    (hv : 16 ≤ v) (item : Item ResultType ValueType) :
    advance phase' item (v + 4) = advance phase item v + 4 := by
  match item with
  | .result .unit | .result (.value (.scalar _)) => rfl
  | .result (.value (.blob size)) =>
    rw [advance, advance]
    split <;> rfl
  | .argument (.scalar .u64) | .argument (.scalar .i64) =>
    change advanceDoubleWord phase' (v + 4) = advanceDoubleWord phase v + 4
    rw [advanceDoubleWord, advanceDoubleWord, if_neg (by omega), if_neg (by omega), alignedFrom,
      alignedFrom]
    omega
  | .argument (.scalar .u8) | .argument (.scalar .u16) | .argument (.scalar .u32)
  | .argument (.scalar .i32) | .argument (.scalar .guestPtr) => rfl
  | .argument (.blob size) =>
    change v + 4 + roundUp size.toNat 4 = v + roundUp size.toNat 4 + 4
    omega

/-! ## The run -/

section Run

variable {items : List (Item ResultType ValueType)} {phase phase' k : ℕ}

/-- As long as no 64-bit scalar is stacked, the cursor does not depend on the address of the
stack. -/
theorem cursor_take_eq (phase phase' : ℕ)
    (h : ∀ j < k, ∀ item, items[j]? = some item → IsDoubleWord item →
      cursor phase (items.take j) ≤ 8) :
    cursor phase (items.take k) = cursor phase' (items.take k) := by
  induction k with
  | zero => rfl
  | succ k ih =>
    have hbefore := ih fun j hj => h j (Nat.lt_succ_of_lt hj)
    by_cases hk : k < items.length
    · have hstep := h k (Nat.lt_succ_self k) items[k] (List.getElem?_eq_getElem hk)
      rw [cursor_take_succ phase hk, cursor_take_succ phase' hk, ← hbefore]
      exact advance_congr hstep phase phase'
    · -- Behind the last value nothing moves any more.
      rw [List.take_of_length_le (by omega)] at hbefore ⊢
      exact hbefore

/-- Cursors that are four bytes apart behind a value, both in the stack and at the same address
modulo eight, stay so behind every later one. -/
theorem cursor_take_add_four (hphase : phase % 8 = (phase' + 4) % 8)
    (hstacked : 16 ≤ cursor phase (items.take k))
    (hapart : cursor phase' (items.take k) = cursor phase (items.take k) + 4) {j : ℕ}
    (hj : k ≤ j) :
    cursor phase' (items.take j) = cursor phase (items.take j) + 4 := by
  suffices h : 16 ≤ cursor phase (items.take j) ∧
      cursor phase' (items.take j) = cursor phase (items.take j) + 4 from h.2
  induction j, hj using Nat.le_induction with
  | base => exact ⟨hstacked, hapart⟩
  | succ j hj ih =>
    obtain ⟨hstacked, hapart⟩ := ih
    refine ⟨hstacked.trans (cursor_take_le_succ phase items j), ?_⟩
    by_cases hlt : j < items.length
    · rw [cursor_take_succ phase hlt, cursor_take_succ phase' hlt, hapart]
      exact advance_add_four hphase hstacked items[j]
    · rw [List.take_of_length_le (by omega)] at hapart ⊢
      exact hapart

end Run

/-! ## The two placements -/

/-- The positions that placing some values on a machine goes through. -/
def positions (m : Machine) (items : List (Item ResultType ValueType)) (k : ℕ) : Position :=
  .ofCursor (stackBase m) (cursor (phase m) (items.take k))

/-- Value number `k` is stacked as a 64-bit scalar on the way along the positions `p`. -/
def StackedAt (items : List (Item ResultType ValueType)) (p : ℕ → Position) (k : ℕ) : Prop :=
  ∃ item, items[k]? = some item ∧ StacksDoubleWord item (p k)

/-- Along `p`, four more stack bytes are handed out than along `q`, modulo `2 ^ 64`, after value
number `k` and after every later one of the `n` values. -/
def StaysAhead (p q : ℕ → Position) (k n : ℕ) : Prop :=
  ∀ j, k < j → j ≤ n → aapcs32.stackUsed (p j) = aapcs32.stackUsed (q j) + 4

section Placements

variable {m m₁ m₂ : Machine} {items : List (Item ResultType ValueType)} {k : ℕ}

theorem stackUsed_positions :
    aapcs32.stackUsed (positions m items k) =
      UInt64.ofNat (cursor (phase m) (items.take k) - 16) :=
  stackUsed_ofCursor _ _

theorem toNat_nextRegister_positions :
    (positions m items k).nextRegister.toNat = min 4 (cursor (phase m) (items.take k) / 4) :=
  (Position.atCursor_ofCursor _ _).nextRegister

theorem stackedAt_positions_iff :
    StackedAt items (positions m items) k ↔
      ∃ item, items[k]? = some item ∧ IsDoubleWord item ∧
        8 < cursor (phase m) (items.take k) :=
  exists_congr fun item => and_congr_right fun _ =>
    stacksDoubleWord_ofCursor_iff (dvd_cursor (dvd_phase m) _) item

/-- Which registers have been handed out does not depend on the machine. -/
theorem nextRegister_positions_eq (m₁ m₂ : Machine) :
    (positions m₁ items k).nextRegister = (positions m₂ items k).nextRegister := by
  have hmin := min_cursor_eq (phase m₁) (phase m₂) (items.take k)
  apply UInt64.toNat_inj.mp
  rw [toNat_nextRegister_positions, toNat_nextRegister_positions]
  omega

/-- As long as no 64-bit scalar has been stacked, neither does the cursor. -/
theorem cursor_take_eq_of_not_stackedAt (m₂ : Machine)
    (h : ∀ j < k, ¬ StackedAt items (positions m₁ items) j) :
    cursor (phase m₁) (items.take k) = cursor (phase m₂) (items.take k) := by
  refine cursor_take_eq (phase m₁) (phase m₂) fun j hj item hitem hdouble => ?_
  by_contra hlt
  exact h j hj (stackedAt_positions_iff.mpr ⟨item, hitem, hdouble, lt_of_not_ge hlt⟩)

/-- If the scalar that is stacked at value number `k` meets a multiple of eight on the first
machine and none on the second, then the second machine is ahead for good. -/
theorem staysAhead_of_stackedAt (hphase : phase m₁ % 8 = (phase m₂ + 4) % 8)
    (hstacked : StackedAt items (positions m₁ items) k)
    (hequal : cursor (phase m₁) (items.take k) = cursor (phase m₂) (items.take k))
    (haligned : (cursor (phase m₁) (items.take k) - 16 + phase m₁) % 8 = 0) :
    StaysAhead (positions m₂ items) (positions m₁ items) k items.length := by
  obtain ⟨item, hitem, hdouble, hlt⟩ := stackedAt_positions_iff.mp hstacked
  obtain ⟨hk, rfl⟩ := List.getElem?_eq_some_iff.mp hitem
  -- Behind the value both cursors are in the stack, four bytes apart,
  have hin : 16 ≤ cursor (phase m₁) (items.take (k + 1)) := by
    rw [cursor_take_succ _ hk]
    exact le_advance_of_doubleWord hdouble hlt _
  have hapart : cursor (phase m₂) (items.take (k + 1)) =
      cursor (phase m₁) (items.take (k + 1)) + 4 := by
    rw [cursor_take_succ _ hk, cursor_take_succ _ hk, ← hequal]
    exact advance_doubleWord_add_four hdouble hlt hphase haligned
  -- and they stay so.
  intro j hj _
  have hlater : 16 ≤ cursor (phase m₁) (items.take j) :=
    hin.trans (monotone_cursor_take _ items hj)
  rw [stackUsed_positions, stackUsed_positions, cursor_take_add_four hphase hin hapart hj,
    Nat.sub_add_comm hlater, UInt64.ofNat_add]
  rfl

end Placements

/-- What the alignment of the stack does to a placement. Two machines whose stacks begin at zero
and at four modulo eight place the same values, in whatever order; after every step they have
handed out the same registers. If no 64-bit scalar is stacked then they have always handed out as
many stack bytes. If one is, they have until the first of them, and from then on one machine is
four bytes ahead for good: the second one if the scalar met a multiple of eight stack bytes, the
first one if it met four more than that. -/
theorem misaligned_stackUsed (m₁ m₂ : Machine)
    (h₁ : (alignUp m₁.stackPointer 4).toNat % 8 = 0)
    (h₂ : (alignUp m₂.stackPointer 4).toNat % 8 = 4)
    (items : List (Item ResultType ValueType)) :
    ∃ p q : ℕ → Position,
      (aapcs32.Walk m₁.registers items p ∧ p 0 = aapcs32.start m₁) ∧
      (aapcs32.Walk m₂.registers items q ∧ q 0 = aapcs32.start m₂) ∧
      (∀ k ≤ items.length, (p k).nextRegister = (q k).nextRegister) ∧
      (((∀ k, ¬ StackedAt items p k) ∧
          ∀ k ≤ items.length, aapcs32.stackUsed (p k) = aapcs32.stackUsed (q k)) ∨
        ∃ k, StackedAt items p k ∧ (∀ j < k, ¬ StackedAt items p j) ∧
          (∀ j ≤ k, aapcs32.stackUsed (p j) = aapcs32.stackUsed (q j)) ∧
          ((aapcs32.stackUsed (p k)).toNat % 8 = 0 ∧ StaysAhead q p k items.length ∨
            (aapcs32.stackUsed (p k)).toNat % 8 = 4 ∧ StaysAhead p q k items.length)) := by
  change phase m₁ = 0 at h₁
  change phase m₂ = 4 at h₂
  refine ⟨positions m₁ items, positions m₂ items,
    ⟨walk_cursor m₁ items, (start_eq_ofCursor m₁).symm⟩,
    ⟨walk_cursor m₂ items, (start_eq_ofCursor m₂).symm⟩,
    fun k _ => nextRegister_positions_eq m₁ m₂, ?_⟩
  have hused : ∀ k, (∀ j < k, ¬ StackedAt items (positions m₁ items) j) →
      aapcs32.stackUsed (positions m₁ items k) = aapcs32.stackUsed (positions m₂ items k) := by
    intro k hbefore
    rw [stackUsed_positions, stackUsed_positions, cursor_take_eq_of_not_stackedAt m₂ hbefore]
  by_cases hsome : ∃ k, StackedAt items (positions m₁ items) k
  · right
    classical
    obtain ⟨k, hk, hfirst⟩ := Nat.findX hsome
    refine ⟨k, hk, hfirst, fun j hj => hused j fun i hi => hfirst i (hi.trans_le hj), ?_⟩
    have hequal := cursor_take_eq_of_not_stackedAt m₂ hfirst
    have hdvd : 4 ∣ cursor (phase m₁) (items.take k) := dvd_cursor (dvd_phase m₁) _
    -- The value meets a multiple of eight bytes on exactly one of the two machines.
    rw [stackUsed_positions, UInt64.toNat_ofNat']
    rcases (show (cursor (phase m₁) (items.take k) - 16) % 8 = 0 ∨
      (cursor (phase m₁) (items.take k) - 16) % 8 = 4 by omega) with hzero | hfour
    · exact .inl ⟨by omega, staysAhead_of_stackedAt (by omega) hk hequal (by omega)⟩
    · have hk₂ : StackedAt items (positions m₂ items) k := by
        rwa [stackedAt_positions_iff, ← hequal, ← stackedAt_positions_iff]
      exact .inr ⟨by omega, staysAhead_of_stackedAt (by omega) hk₂ hequal.symm (by omega)⟩
  · have hnone : ∀ k, ¬ StackedAt items (positions m₁ items) k := not_exists.mp hsome
    exact .inl ⟨hnone, fun k _ => hused k fun j _ => hnone j⟩

/-- Behind a split aggregate the scalar meets four stack bytes, so the machine whose stack begins
at a multiple of eight is ahead, here with a stack that wraps around. -/
theorem misaligned_stackUsed_behind_split :
    let m₁ : Machine := { Machine.zero with stackPointer := 0xfffffffffffffff8 }
    let m₂ : Machine := { Machine.zero with stackPointer := 0x8001 }
    let items : List (Item ResultType ValueType) :=
      [.argument (.scalar .u32), .argument (.blob 16), .argument (.scalar .i64)]
    (alignUp m₁.stackPointer 4).toNat % 8 = 0 ∧ (alignUp m₂.stackPointer 4).toNat % 8 = 4 ∧
      ∃ p q : ℕ → Position, aapcs32.Walk m₁.registers items p ∧ aapcs32.Walk m₂.registers items q ∧
        aapcs32.stackUsed (p 2) = 4 ∧ aapcs32.stackUsed (q 2) = 4 ∧ StaysAhead p q 2 3 := by
  intro m₁ m₂ items
  have h₁ : (alignUp m₁.stackPointer 4).toNat % 8 = 0 := by decide
  have h₂ : (alignUp m₂.stackPointer 4).toNat % 8 = 4 := by decide
  obtain ⟨p, q, ⟨hp, hstart⟩, ⟨hq, -⟩, -, hcases⟩ := misaligned_stackUsed m₁ m₂ h₁ h₂ items
  have hpositions : ∀ k ≤ 3, p k = positions m₁ items k := fun k hk =>
    hp.unique (walk_cursor m₁ items) (hstart.trans (start_eq_ofCursor m₁)) hk
  have hused : aapcs32.stackUsed (p 2) = 4 := by
    rw [hpositions 2 (by decide)]
    decide
  have hstacked : StackedAt items p 2 := by
    refine ⟨_, rfl, trivial, ?_⟩
    rw [hpositions 2 (by decide)]
    decide
  refine ⟨h₁, h₂, p, q, hp, hq, hused, ?_⟩
  rcases hcases with ⟨hnone, -⟩ | ⟨k, ⟨item, hitem, hdouble, -⟩, hfirst, hequal, hahead⟩
  · exact absurd hstacked (hnone 2)
  -- The scalar is the only one of the three values that can be the first one stacked.
  obtain rfl : k = 2 := by
    match k with
    | 0 | 1 =>
      cases hitem
      exact hdouble.elim
    | 2 => rfl
    | k + 3 => exact absurd hstacked (hfirst 2 (by omega))
  have hfour : (aapcs32.stackUsed (p 2)).toNat % 8 ≠ 0 := by
    rw [hused]
    decide
  obtain ⟨hzero, -⟩ | ⟨-, hahead⟩ := hahead
  · exact absurd hzero hfour
  · exact ⟨(hequal 2 le_rfl).symm.trans hused, hahead⟩

end CallLayout.Aapcs32

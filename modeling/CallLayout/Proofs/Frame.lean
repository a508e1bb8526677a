import CallLayout.Convention.Frame
import CallLayout.Proofs.Rounding
import CallLayout.Proofs.Walk
import Mathlib.Data.List.Induction
import Mathlib.Order.Bounds.Defs

/-!
# Offsets in a frame

The frame convention rounds the absolute address of a 64-bit argument, which may wrap around, and
takes the frame's address away again. In natural numbers there is nothing to wrap: the argument
goes to the least offset from the current one on whose address is a multiple of eight
(`isLeast_alignedOffset`). The two agree as long as the offset fits a word
(`place_ofOffset`), wherever the frame lies, because `2 ^ 64` is a multiple of eight itself.

An argument takes fifteen bytes at most (`offsetAfter_le`), so that fewer than `2 ^ 59` arguments
always fit. The main result is `placement_exact`, which says where each value of such a placement
ends and what it depends on.
-/

namespace CallLayout.Frame

open Word

/-! ## Exact offsets -/

/-- The least offset from the given one on whose address is a multiple of eight, in a frame at the
given address. -/
def alignedOffset (frame offset : ℕ) : ℕ := roundUp (frame + offset) 8 - frame

theorem add_alignedOffset (frame offset : ℕ) :
    frame + alignedOffset frame offset = roundUp (frame + offset) 8 := by
  have hle := le_roundUp (frame + offset) (by decide : 0 < 8)
  rw [alignedOffset]
  omega

theorem isLeast_alignedOffset (frame offset : ℕ) :
    IsLeast {o | offset ≤ o ∧ 8 ∣ frame + o} (alignedOffset frame offset) := by
  have haddress := add_alignedOffset frame offset
  constructor
  · have hle := le_roundUp (frame + offset) (by decide : 0 < 8)
    refine ⟨by omega, ?_⟩
    rw [haddress]
    exact dvd_roundUp _ 8
  · rintro o ⟨hle, hdvd⟩
    have hround := roundUp_le (by decide) hdvd (Nat.add_le_add_left hle frame)
    omega

/-- The offset behind a value. -/
def advance (frame : ℕ) : Item Result Signed → ℕ → ℕ
  | .result _, offset => offset
  | .argument .i32, offset => offset + 4
  | .argument .i64, offset => alignedOffset frame offset + 8

/-- The offset behind some values. -/
def offsetAfter (frame : ℕ) (items : List (Item Result Signed)) : ℕ :=
  items.foldl (fun offset item => advance frame item offset) 0

theorem offsetAfter_concat (frame : ℕ) (items : List (Item Result Signed))
    (item : Item Result Signed) :
    offsetAfter frame (items ++ [item]) = advance frame item (offsetAfter frame items) := by
  simp [offsetAfter]

theorem offsetAfter_take_succ (frame : ℕ) {items : List (Item Result Signed)} {k : ℕ}
    (h : k < items.length) :
    offsetAfter frame (items.take (k + 1)) =
      advance frame items[k] (offsetAfter frame (items.take k)) := by
  rw [List.take_succ_eq_append_getElem h, offsetAfter_concat]

theorem le_advance (frame : ℕ) (item : Item Result Signed) (offset : ℕ) :
    offset ≤ advance frame item offset := by
  fun_cases advance with
  | case1 => exact Nat.le_refl _
  | case2 => exact Nat.le_add_right _ _
  | case3 => exact Nat.le_add_right_of_le (isLeast_alignedOffset frame _).1.1

theorem monotone_offsetAfter_take (frame : ℕ) (items : List (Item Result Signed)) :
    Monotone fun k => offsetAfter frame (items.take k) := by
  apply monotone_take
  intro items item
  rw [offsetAfter_concat]
  exact le_advance frame item _

/-- Of the frame's address only the remainder modulo eight matters. -/
theorem advance_congr {frame frame' : ℕ} (h : frame % 8 = frame' % 8)
    (item : Item Result Signed) (offset : ℕ) :
    advance frame item offset = advance frame' item offset := by
  match item with
  | .result _ | .argument .i32 => rfl
  | .argument .i64 =>
    simp only [advance, alignedOffset, roundUp]
    omega

theorem offsetAfter_congr {frame frame' : ℕ} (h : frame % 8 = frame' % 8)
    (items : List (Item Result Signed)) : offsetAfter frame items = offsetAfter frame' items := by
  have hadvance : advance frame = advance frame' := by
    funext item offset
    exact advance_congr h item offset
  rw [offsetAfter, offsetAfter, hadvance]

/-- The number of arguments among some values. -/
def argumentCount (items : List (Item Result Signed)) : ℕ :=
  items.countP fun item => item matches .argument _

/-- An argument takes fifteen bytes at most, seven of them to align it. -/
theorem advance_le (frame : ℕ) (item : Item Result Signed) (offset : ℕ) :
    advance frame item offset ≤ offset + 15 * argumentCount [item] := by
  match item with
  | .result _ => exact Nat.le_add_right _ _
  | .argument .i32 =>
    change offset + 4 ≤ offset + 15
    omega
  | .argument .i64 =>
    change alignedOffset frame offset + 8 ≤ offset + 15
    rw [alignedOffset, roundUp]
    omega

theorem offsetAfter_le (frame : ℕ) (items : List (Item Result Signed)) :
    offsetAfter frame items ≤ 15 * argumentCount items := by
  induction items using List.reverseRecOn with
  | nil => exact Nat.le_refl 0
  | append_singleton items item ih =>
    have hitem := advance_le frame item (offsetAfter frame items)
    have hcount : argumentCount (items ++ [item]) = argumentCount items + argumentCount [item] :=
      List.countP_append
    rw [offsetAfter_concat, hcount]
    omega

/-! ## Placement -/

/-- The address of the frame. -/
def address (registers : Registers) : ℕ := (registers.get frameRegister).toNat

/-- The position at an offset. -/
def Position.ofOffset (n : ℕ) : Position := ⟨UInt64.ofNat n⟩

/-- The wrapped address is rounded to what the exact one is, and the offset wraps with it. -/
theorem Position.pushDoubleWord_ofOffset (frame : UInt64) (n : ℕ) :
    (ofOffset n).pushDoubleWord frame = ofOffset (alignedOffset frame.toNat n + 8) := by
  have haddress := add_alignedOffset frame.toNat n
  have hframe := frame.toNat_lt
  refine congrArg Position.mk (UInt64.toNat_inj.mp ?_)
  rw [UInt64.toNat_add, UInt64.toNat_sub, toNat_alignUp (k := 3) rfl, UInt64.toNat_add, ofOffset,
    UInt64.toNat_ofNat', UInt64.toNat_ofNat', roundUp]
  rw [roundUp] at haddress
  change (_ + 8) % _ = _
  omega

/-- Placing a value moves the offset exactly, if it still fits a word. -/
theorem place_ofOffset (registers : Registers) {item : Item Result Signed} {n : ℕ}
    (h : advance (address registers) item n < 2 ^ 64) :
    frame.place registers item (.ofOffset n) =
      .ok (.ofOffset (advance (address registers) item n)) := by
  match item with
  | .result _ => rfl
  | .argument .i32 =>
    have hadd : Word.add (Position.ofOffset n).offset Signed.i32.size =
        .ok (UInt64.ofNat (n + 4)) := add_ofNat_eq_ok h
    change (Position.ofOffset n).push Signed.i32.size = _
    rw [Position.push, hadd]
    rfl
  | .argument .i64 => exact congrArg Except.ok (Position.pushDoubleWord_ofOffset _ n)

/-- The positions of a placement are those of the exact offsets, if these fit a word. -/
theorem walk_offsetAfter (registers : Registers) {items : List (Item Result Signed)}
    (h : offsetAfter (address registers) items < 2 ^ 64) :
    frame.Walk registers items fun k =>
      .ofOffset (offsetAfter (address registers) (items.take k)) := by
  intro k hk
  -- No beginning of the values goes further than all of them.
  have hle := monotone_offsetAfter_take (address registers) items (Nat.succ_le_of_lt hk)
  dsimp only at hle ⊢
  rw [List.take_length] at hle
  rw [offsetAfter_take_succ _ hk] at hle ⊢
  exact place_ofOffset registers (hle.trans_lt h)

/-- The frame convention computes exact offsets, wherever the frame lies. A 32-bit argument takes
four bytes, a 64-bit argument takes eight from the least offset on whose address is a multiple of
eight, and a result takes none. As long as there are fewer than `2 ^ 59` arguments, nothing
overflows and the offset after every value is the exact one, also when addresses wrap around. So
offsets never decrease, and two machines place the values alike if their frames lie at the same
address modulo eight, whatever else they hold. -/
theorem placement_exact (m : Machine) (items : List (Item Result Signed))
    (h : argumentCount items < 2 ^ 59) :
    (∀ offset, IsLeast {o | offset ≤ o ∧ 8 ∣ address m.registers + o}
      (alignedOffset (address m.registers) offset)) ∧
    ∃ p : ℕ → Position,
      (frame.Walk m.registers items p ∧ p 0 = frame.start m) ∧
      (∀ k ≤ items.length,
        (p k).offset.toNat = offsetAfter (address m.registers) (items.take k)) ∧
      (∀ j k, j ≤ k → k ≤ items.length → (p j).offset ≤ (p k).offset) ∧
      ∀ m' : Machine, address m'.registers % 8 = address m.registers % 8 →
        frame.Walk m'.registers items p ∧ p 0 = frame.start m' := by
  have hfits : ∀ k, offsetAfter (address m.registers) (items.take k) < 2 ^ 64 := by
    intro k
    have hle := offsetAfter_le (address m.registers) (items.take k)
    have hcount : argumentCount (items.take k) ≤ argumentCount items :=
      (List.take_sublist k items).countP_le
    omega
  have htoNat : ∀ k, (UInt64.ofNat (offsetAfter (address m.registers) (items.take k))).toNat =
      offsetAfter (address m.registers) (items.take k) :=
    fun k => UInt64.toNat_ofNat_of_lt' (hfits k)
  have hall : offsetAfter (address m.registers) items < 2 ^ 64 := by
    simpa using hfits items.length
  refine ⟨isLeast_alignedOffset _, _, ⟨walk_offsetAfter m.registers hall, rfl⟩,
    fun k _ => htoNat k, fun j k hjk _ => ?_, fun m' hm => ⟨?_, rfl⟩⟩
  · rw [UInt64.le_iff_toNat_le, Position.ofOffset, Position.ofOffset, htoNat, htoNat]
    exact monotone_offsetAfter_take _ items hjk
  · have hsame := offsetAfter_congr hm.symm
    simp only [hsame]
    exact walk_offsetAfter m'.registers (hsame items ▸ hall)

/-- The frame begins three bytes below the end of the addresses. The first 64-bit argument is
rounded over that end, and goes to the same offset as in a frame at address five. -/
theorem placement_exact_wrapping :
    let m : Machine := Machine.zero.setRegister frameRegister 0xfffffffffffffffd
    let m' : Machine := (Machine.zero.setRegister frameRegister 5).setStackPointer 0x1000
    let items : List (Item Result Signed) :=
      [.result .i32, .argument .i32, .argument .i64, .argument .i64]
    argumentCount items < 2 ^ 59 ∧ address m'.registers % 8 = address m.registers % 8 ∧
      ∃ p : ℕ → Position, frame.Walk m.registers items p ∧ frame.Walk m'.registers items p ∧
        (p 2).offset.toNat = 4 ∧ (p 3).offset.toNat = 19 ∧ (p 4).offset.toNat = 27 := by
  intro m m' items
  have hcount : argumentCount items < 2 ^ 59 := by decide
  have hmod : address m'.registers % 8 = address m.registers % 8 := by decide
  obtain ⟨-, p, ⟨hwalk, -⟩, hoffset, -, hcongr⟩ := placement_exact m items hcount
  refine ⟨hcount, hmod, p, hwalk, (hcongr m' hmod).1, ?_, ?_, ?_⟩
  · exact (hoffset 2 (by decide)).trans (by decide)
  · exact (hoffset 3 (by decide)).trans (by decide)
  · exact (hoffset 4 (by decide)).trans (by decide)

end CallLayout.Frame

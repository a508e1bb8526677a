import CallLayout.Convention.Aapcs32
import CallLayout.Proofs.Rounding
import CallLayout.Proofs.Walk
import Mathlib.Data.List.Induction
import Mathlib.Order.Bounds.Defs

/-!
# The linear frame of the Arm convention

The four core registers and the stack behind them are one linear frame of bytes: its first
sixteen bytes are the registers, and the stack begins with the seventeenth. A position is a
*cursor* into this frame, an unbounded natural number, and every rule of the convention is a move
of the cursor. What is left of the machine is the address of the stack, from which the rules need
the remainder modulo eight only.

The module introduces:

* `advance` and `cursor`: the moves, and the cursor after some values;
* `Position.ofCursor`: the position that a cursor stands for.

Placing a value moves the cursor of its position (`place_ofCursor`), so that a placement of any
values is one run of the cursor (`placeItems_start`). No placement overflows.
-/

namespace CallLayout.Aapcs32

open Word

/-! ## The cursor -/

/-- The least place from `v` on whose address is a multiple of eight, if the address of the
stack is `phase` modulo eight. -/
def alignedFrom (phase v : ℕ) : ℕ := v + (8 - (v + phase) % 8) % 8

theorem isLeast_alignedFrom (phase v : ℕ) :
    IsLeast {w | v ≤ w ∧ 8 ∣ w + phase} (alignedFrom phase v) := by
  rw [alignedFrom]
  constructor
  · constructor <;> omega
  · rintro w ⟨hle, hdvd⟩
    omega

/-- The cursor after a 64-bit scalar: behind the next even pair of registers if there is one,
else behind the next eight aligned bytes of stack. -/
def advanceDoubleWord (phase v : ℕ) : ℕ :=
  -- The registers have no address, so pairs begin at multiples of eight whatever the phase is.
  if v ≤ 8 then roundUp v 8 + 8 else alignedFrom phase (max v 16) + 8

/-- The cursor after a value. -/
def advance (phase : ℕ) : Item ResultType ValueType → ℕ → ℕ
  -- The address of a result in memory takes a word, whatever the size of the result is.
  | .result (.value (.blob size)), v => if 4 < size.toNat then v + 4 else v
  | .result _, v => v
  | .argument (.scalar .u64), v | .argument (.scalar .i64), v => advanceDoubleWord phase v
  | .argument (.scalar _), v => v + 4
  | .argument (.blob size), v => v + roundUp size.toNat 4

/-- The cursor after some values. -/
def cursor (phase : ℕ) (items : List (Item ResultType ValueType)) : ℕ :=
  items.foldl (fun v item => advance phase item v) 0

/-! ## Positions as cursors -/

attribute [ext] Position

/-- A position is where the cursor `v` of a stack at the address `base` is. -/
structure Position.AtCursor (p : Position) (base : UInt64) (v : ℕ) : Prop where
  /-- The registers are handed out up to the cursor. -/
  nextRegister : p.nextRegister.toNat = min 4 (v / 4)
  /-- The stack begins at the address. -/
  stackBase : p.stackBase = base
  /-- The stack is handed out up to the cursor. -/
  nextStacked : p.nextStacked.toNat = (base.toNat + (v - 16)) % 2 ^ 64

/-- The position of a cursor. -/
def Position.ofCursor (base : UInt64) (v : ℕ) : Position where
  nextRegister := UInt64.ofNat (min 4 (v / 4))
  nextStacked := base + UInt64.ofNat (v - 16)
  stackBase := base

namespace Position

theorem atCursor_ofCursor (base : UInt64) (v : ℕ) : (ofCursor base v).AtCursor base v where
  nextRegister := by
    rw [ofCursor, UInt64.toNat_ofNat']
    omega
  stackBase := rfl
  nextStacked := by
    rw [ofCursor, UInt64.toNat_add, UInt64.toNat_ofNat', Nat.add_mod_mod]

/-- A cursor determines its position. -/
theorem AtCursor.eq_ofCursor {p : Position} {base : UInt64} {v : ℕ} (h : p.AtCursor base v) :
    p = ofCursor base v := by
  have hcursor := atCursor_ofCursor base v
  obtain ⟨nextRegister, nextStacked, stackBase⟩ := p
  have hregister := UInt64.toNat_inj.mp (h.nextRegister.trans hcursor.nextRegister.symm)
  have hstacked := UInt64.toNat_inj.mp (h.nextStacked.trans hcursor.nextStacked.symm)
  have hbase := h.stackBase.trans hcursor.stackBase.symm
  exact Position.ext hregister hstacked hbase

section Steps

variable {base : UInt64} {v : ℕ}

/-- Some registers are left exactly if the cursor is in them. -/
theorem nextRegister_ofCursor_lt_iff :
    (ofCursor base v).nextRegister < registerLimit ↔ v < 16 := by
  rw [UInt64.lt_iff_toNat_lt, (atCursor_ofCursor base v).nextRegister]
  change min 4 (v / 4) < 4 ↔ v < 16
  omega

/-- Nothing is stacked while the cursor is in the registers. -/
theorem nextStacked_ofCursor_of_lt (h : v < 16) : (ofCursor base v).nextStacked = base := by
  rw [ofCursor, show v - 16 = 0 by omega]
  exact UInt64.add_zero base

/-- The stack is handed out in whole words. -/
theorem alignUp_word_nextStacked (hbase : 4 ∣ base.toNat) (hv : 4 ∣ v) :
    alignUp (ofCursor base v).nextStacked wordSize = (ofCursor base v).nextStacked := by
  apply UInt64.toNat_inj.mp
  rw [toNat_alignUp (k := 2) rfl, (atCursor_ofCursor base v).nextStacked, roundUp_of_dvd]
  · exact Nat.mod_mod _ _
  · decide
  · omega

/-- A word moves the cursor by four bytes. -/
theorem takeWord_ofCursor (hbase : 4 ∣ base.toNat) (hv : 4 ∣ v) :
    (ofCursor base v).takeWord = .ok (ofCursor base (v + 4)) := by
  have hcursor := atCursor_ofCursor base v
  rw [takeWord]
  split
  next hfree =>
    -- The next register is below the limit, so the checked sum succeeds.
    rw [nextRegister_ofCursor_lt_iff] at hfree
    rw [Word.add_eq_ok (by rw [hcursor.nextRegister, UInt64.toNat_one]; omega)]
    refine congrArg Except.ok (AtCursor.eq_ofCursor ⟨?_, rfl, ?_⟩)
    · change ((ofCursor base v).nextRegister + 1).toNat = _
      rw [UInt64.toNat_add, hcursor.nextRegister, UInt64.toNat_one]
      omega
    · change (ofCursor base v).nextStacked.toNat = _
      rw [hcursor.nextStacked]
      omega
  next hfull =>
    rw [nextRegister_ofCursor_lt_iff] at hfull
    rw [alignUp_word_nextStacked hbase hv]
    refine congrArg Except.ok (AtCursor.eq_ofCursor ⟨?_, rfl, ?_⟩)
    · change (ofCursor base v).nextRegister.toNat = _
      rw [hcursor.nextRegister]
      omega
    · change ((ofCursor base v).nextStacked + wordSize).toNat = _
      rw [UInt64.toNat_add, hcursor.nextStacked]
      change (_ + 4) % _ = _
      omega

/-- The register number behind the next even pair, which is computed without overflow. -/
theorem nextPair_ofCursor :
    (do
      let first ← nextMultiple (ofCursor base v).nextRegister 2
      Word.add first 2) = .ok (UInt64.ofNat (roundUp (min 4 (v / 4)) 2 + 2)) := by
  have hcursor := atCursor_ofCursor base v
  have hfirst : nextMultiple (ofCursor base v).nextRegister 2 =
      .ok (UInt64.ofNat (roundUp (min 4 (v / 4)) 2)) := by
    rw [nextMultiple_eq_ok (by decide), hcursor.nextRegister]
    · rfl
    · rw [hcursor.nextRegister]
      change roundUp _ 2 < _
      rw [roundUp]
      omega
  rw [hfirst]
  refine add_ofNat_eq_ok (b := 2) ?_
  rw [roundUp]
  omega

/-- A 64-bit scalar moves the cursor behind its pair of registers or its aligned bytes. -/
theorem takeDoubleWord_ofCursor (hv : 4 ∣ v) :
    (ofCursor base v).takeDoubleWord =
      .ok (ofCursor base (advanceDoubleWord (base.toNat % 8) v)) := by
  have hcursor := atCursor_ofCursor base v
  have htoNat : (UInt64.ofNat (roundUp (min 4 (v / 4)) 2 + 2)).toNat =
      roundUp (min 4 (v / 4)) 2 + 2 := by
    rw [UInt64.toNat_ofNat', roundUp]
    omega
  have hfits : UInt64.ofNat (roundUp (min 4 (v / 4)) 2 + 2) ≤ registerLimit ↔ v ≤ 8 := by
    rw [UInt64.le_iff_toNat_le, htoNat, roundUp]
    change _ ≤ 4 ↔ _
    omega
  rw [takeDoubleWord, ← bind_assoc, nextPair_ofCursor]
  change (if _ then _ else _) = _
  rw [if_congr hfits rfl rfl]
  split
  next hpair =>
    refine congrArg Except.ok (AtCursor.eq_ofCursor ⟨?_, rfl, ?_⟩)
    · rw [htoNat, advanceDoubleWord, if_pos hpair, roundUp, roundUp]
      omega
    · rw [hcursor.nextStacked, advanceDoubleWord, if_pos hpair, roundUp]
      omega
  next hstacked =>
    -- The stacked value is aligned as a word, the cursor as a number; both wrap around alike.
    refine congrArg Except.ok (AtCursor.eq_ofCursor ⟨?_, rfl, ?_⟩)
    · rw [advanceDoubleWord, if_neg hstacked, alignedFrom]
      change 4 = _
      omega
    · rw [advanceDoubleWord, if_neg hstacked, alignedFrom, UInt64.toNat_add,
        toNat_alignUp (k := 3) rfl, hcursor.nextStacked, roundUp]
      change (_ + 8) % _ = _
      omega

/-- An aggregate may be split exactly if the cursor is in the registers. -/
theorem splits_ofCursor_iff :
    (ofCursor base v).nextRegister < registerLimit ∧
        (ofCursor base v).nextStacked = (ofCursor base v).stackBase ↔ v < 16 := by
  rw [nextRegister_ofCursor_lt_iff]
  exact ⟨And.left, fun h => ⟨h, nextStacked_ofCursor_of_lt h⟩⟩

/-- While registers are left, words go to them first and the rest of the words to the stack. -/
theorem takeWords_ofCursor_of_lt {words : UInt64} (hsome : words ≠ 0) (hv : 4 ∣ v)
    (hlt : v < 16) :
    (ofCursor base v).takeWords words = .ok (ofCursor base (v + 4 * words.toNat)) := by
  have hcursor := atCursor_ofCursor base v
  -- First the registers that are left and the words that go to them, in natural numbers,
  have hregister : (ofCursor base v).nextRegister.toNat = v / 4 := by
    rw [hcursor.nextRegister]
    omega
  have hle : (ofCursor base v).nextRegister ≤ registerLimit := by
    rw [UInt64.le_iff_toNat_le, hregister]
    change _ ≤ 4
    omega
  have hfree : (registerLimit - (ofCursor base v).nextRegister).toNat = 4 - v / 4 := by
    rw [UInt64.toNat_sub_of_le _ _ hle, hregister]
    rfl
  have hmin : (min words (registerLimit - (ofCursor base v).nextRegister)).toNat =
      min words.toNat (4 - v / 4) := by
    rw [toNat_min, hfree]
  -- then the checked operations, which all succeed.
  have hadd : Word.add (ofCursor base v).nextRegister
      (min words (registerLimit - (ofCursor base v).nextRegister)) = .ok _ :=
    add_eq_ok (by rw [hregister, hmin]; omega)
  have hsub : Word.sub words (min words (registerLimit - (ofCursor base v).nextRegister)) =
      .ok _ :=
    sub_eq_ok (by rw [UInt64.le_iff_toNat_le, hmin]; omega)
  rw [takeWords, if_neg hsome, if_pos (splits_ofCursor_iff.mpr hlt)]
  simp only [sub_eq_ok hle, hadd, hsub, bind, Except.bind]
  refine congrArg Except.ok (AtCursor.eq_ofCursor ⟨?_, rfl, ?_⟩)
  · rw [UInt64.toNat_add, hregister, hmin]
    omega
  · rw [nextStacked_ofCursor_of_lt hlt, UInt64.toNat_add, UInt64.toNat_mul,
      UInt64.toNat_sub_of_le, hmin]
    · change (_ + _ * 4 % _) % _ = _
      omega
    · rw [UInt64.le_iff_toNat_le, hmin]
      omega

/-- A number of words moves the cursor by as many words. -/
theorem takeWords_ofCursor (words : UInt64) (hbase : 4 ∣ base.toNat) (hv : 4 ∣ v) :
    (ofCursor base v).takeWords words = .ok (ofCursor base (v + 4 * words.toNat)) := by
  by_cases hsome : words = 0
  · rw [takeWords, if_pos hsome, hsome, UInt64.toNat_zero, Nat.mul_zero, Nat.add_zero]
  by_cases hlt : v < 16
  · exact takeWords_ofCursor_of_lt hsome hv hlt
  · rw [takeWords, if_neg hsome, if_neg (splits_ofCursor_iff.not.mpr hlt),
      alignUp_word_nextStacked hbase hv]
    refine congrArg Except.ok (AtCursor.eq_ofCursor ⟨?_, rfl, ?_⟩)
    · change 4 = _
      omega
    · rw [UInt64.toNat_add, UInt64.toNat_mul, (atCursor_ofCursor base v).nextStacked]
      change (_ + words.toNat * 4 % _) % _ = _
      omega

end Steps

end Position

/-! ## Placement as a run of the cursor -/

/-- The address of the stack: the stack pointer rounded up to a word. -/
def stackBase (m : Machine) : UInt64 := alignUp m.stackPointer wordSize

/-- The address of the stack modulo eight. -/
def phase (m : Machine) : ℕ := (stackBase m).toNat % 8

theorem dvd_stackBase (m : Machine) : 4 ∣ (stackBase m).toNat := by
  rw [stackBase, toNat_alignUp (k := 2) rfl]
  have hdvd : 2 ^ 2 ∣ roundUp m.stackPointer.toNat (2 ^ 2) := dvd_roundUp _ _
  omega

theorem dvd_phase (m : Machine) : 4 ∣ phase m := by
  have hdvd := dvd_stackBase m
  rw [phase]
  omega

theorem dvd_advanceDoubleWord {phase : ℕ} (h : 4 ∣ phase) (v : ℕ) :
    4 ∣ advanceDoubleWord phase v := by
  rw [advanceDoubleWord, roundUp, alignedFrom]
  split <;> omega

theorem add_eight_le_advanceDoubleWord (phase v : ℕ) : v + 8 ≤ advanceDoubleWord phase v := by
  rw [advanceDoubleWord, roundUp, alignedFrom]
  split <;> omega

/-- The cursor stays at a word boundary. -/
theorem dvd_advance {phase v : ℕ} (hphase : 4 ∣ phase) (hv : 4 ∣ v)
    (item : Item ResultType ValueType) : 4 ∣ advance phase item v := by
  fun_cases advance with
  | case1 | case6 => omega
  | case2 | case3 => exact hv
  | case4 | case5 => exact dvd_advanceDoubleWord hphase v
  | case7 => exact Nat.dvd_add hv (dvd_roundUp _ 4)

/-- The cursor never moves back. -/
theorem le_advance (phase v : ℕ) (item : Item ResultType ValueType) :
    v ≤ advance phase item v := by
  fun_cases advance with
  | case1 | case6 | case7 => omega
  | case2 | case3 => exact Nat.le_refl v
  | case4 | case5 => exact Nat.le_of_add_right_le (add_eight_le_advanceDoubleWord phase v)

/-- Placing a value moves the cursor of the position. -/
theorem place_ofCursor (registers : Registers) {base : UInt64} {v : ℕ}
    (hbase : 4 ∣ base.toNat) (hv : 4 ∣ v) (item : Item ResultType ValueType) :
    aapcs32.place registers item (.ofCursor base v) =
      .ok (.ofCursor base (advance (base.toNat % 8) item v)) := by
  match item with
  | .result .unit | .result (.value (.scalar _)) => rfl
  | .result (.value (.blob size)) =>
    change (if 4 < size.toNat then _ else _) = _
    rw [advance, Position.takeWord_ofCursor hbase hv]
    split <;> rfl
  | .argument (.scalar .u64) | .argument (.scalar .i64) =>
    exact Position.takeDoubleWord_ofCursor hv
  | .argument (.scalar .u8) | .argument (.scalar .u16) | .argument (.scalar .u32)
  | .argument (.scalar .i32) | .argument (.scalar .guestPtr) =>
    exact Position.takeWord_ofCursor hbase hv
  | .argument (.blob size) =>
    refine (Position.takeWords_ofCursor _ hbase hv).trans ?_
    rw [toNat_unitsFor (by decide), Nat.mul_comm]
    rfl

/-- Placing some values runs the cursor along them. -/
theorem placeItems_ofCursor (registers : Registers) {base : UInt64} {v : ℕ}
    (hbase : 4 ∣ base.toNat) (hv : 4 ∣ v) (items : List (Item ResultType ValueType)) :
    aapcs32.placeItems registers items (.ofCursor base v) =
      .ok (.ofCursor base (items.foldl (fun v item => advance (base.toNat % 8) item v) v)) := by
  induction items generalizing v with
  | nil => rfl
  | cons item items ih =>
    have hphase : 4 ∣ base.toNat % 8 := by omega
    -- The step needs a cursor at a word boundary, and leaves it at one.
    rw [Convention.placeItems, place_ofCursor registers hbase hv]
    exact ih (dvd_advance hphase hv item)

theorem start_eq_ofCursor (m : Machine) : aapcs32.start m = .ofCursor (stackBase m) 0 :=
  Position.AtCursor.eq_ofCursor ⟨rfl, rfl, (Nat.mod_eq_of_lt (stackBase m).toNat_lt).symm⟩

/-- From the start, placing some values ends where the cursor does. -/
theorem placeItems_start (m : Machine) (items : List (Item ResultType ValueType)) :
    aapcs32.placeItems m.registers items (aapcs32.start m) =
      .ok (.ofCursor (stackBase m) (cursor (phase m) items)) := by
  rw [start_eq_ofCursor]
  exact placeItems_ofCursor m.registers (dvd_stackBase m) (Nat.dvd_zero 4) items

/-- A call ends where the cursor over its values does. -/
theorem placeCall_start (m : Machine) (s : Signature ResultType ValueType) :
    aapcs32.placeCall m.registers s (aapcs32.start m) =
      .ok (.ofCursor (stackBase m) (cursor (phase m) s.items)) := by
  rw [Convention.placeCall_eq_placeItems, placeItems_start]

/-- The cursor after one more value. -/
theorem cursor_concat (phase : ℕ) (items : List (Item ResultType ValueType))
    (item : Item ResultType ValueType) :
    cursor phase (items ++ [item]) = advance phase item (cursor phase items) := by
  rw [cursor, List.foldl_append]
  rfl

theorem cursor_take_succ (phase : ℕ) {items : List (Item ResultType ValueType)} {k : ℕ}
    (h : k < items.length) :
    cursor phase (items.take (k + 1)) = advance phase items[k] (cursor phase (items.take k)) := by
  rw [List.take_succ_eq_append_getElem h, cursor_concat]

theorem monotone_cursor_take (phase : ℕ) (items : List (Item ResultType ValueType)) :
    Monotone fun k => cursor phase (items.take k) := by
  apply monotone_take
  intro items item
  rw [cursor_concat]
  exact le_advance phase _ item

theorem cursor_take_le_succ (phase : ℕ) (items : List (Item ResultType ValueType)) (k : ℕ) :
    cursor phase (items.take k) ≤ cursor phase (items.take (k + 1)) :=
  monotone_cursor_take phase items (Nat.le_succ k)

theorem dvd_cursor {phase : ℕ} (h : 4 ∣ phase) (items : List (Item ResultType ValueType)) :
    4 ∣ cursor phase items := by
  induction items using List.reverseRecOn with
  | nil => exact Nat.dvd_zero 4
  | append_singleton items item ih =>
    rw [cursor_concat]
    exact dvd_advance h ih item

theorem min_advanceDoubleWord_congr {v w : ℕ} (h : min v 16 = min w 16) (phase phase' : ℕ) :
    min (advanceDoubleWord phase v) 16 = min (advanceDoubleWord phase' w) 16 := by
  -- If a pair of registers is left the cursors are equal, and if not both end up in the stack.
  rw [advanceDoubleWord, advanceDoubleWord, alignedFrom, alignedFrom, roundUp, roundUp]
  split <;> split <;> omega

/-- Two cursors that agree as long as they are in the registers still do so after a value, even if
their stacks are aligned differently. -/
theorem min_advance_congr {v w : ℕ} (h : min v 16 = min w 16) (phase phase' : ℕ)
    (item : Item ResultType ValueType) :
    min (advance phase item v) 16 = min (advance phase' item w) 16 := by
  match item with
  | .result .unit | .result (.value (.scalar _)) => exact h
  | .result (.value (.blob size)) =>
    rw [advance, advance]
    split <;> omega
  | .argument (.scalar .u64) | .argument (.scalar .i64) =>
    exact min_advanceDoubleWord_congr h phase phase'
  | .argument (.scalar .u8) | .argument (.scalar .u16) | .argument (.scalar .u32)
  | .argument (.scalar .i32) | .argument (.scalar .guestPtr) | .argument (.blob _) =>
    simp only [advance]
    omega

/-- Where the cursor is in the registers does not depend on the address of the stack. -/
theorem min_cursor_eq (phase phase' : ℕ) (items : List (Item ResultType ValueType)) :
    min (cursor phase items) 16 = min (cursor phase' items) 16 := by
  induction items using List.reverseRecOn with
  | nil => rfl
  | append_singleton items item ih =>
    rw [cursor_concat, cursor_concat]
    exact min_advance_congr ih phase phase' item

/-- The positions of a placement are those of the cursor after each beginning of the values. -/
theorem walk_cursor (m : Machine) (items : List (Item ResultType ValueType)) :
    aapcs32.Walk m.registers items fun k =>
      .ofCursor (stackBase m) (cursor (phase m) (items.take k)) := by
  intro k h
  dsimp only
  rw [cursor_take_succ (phase m) h]
  exact place_ofCursor m.registers (dvd_stackBase m) (dvd_cursor (dvd_phase m) _) _

/-- The Arm convention refines its linear frame: whatever results and arguments are placed, in
whatever order, no step overflows and the position reached is where the cursor is, also when
addresses wrap around. So it is for the values of every call. -/
theorem placement_linear (m : Machine) :
    (∀ items : List (Item ResultType ValueType), ∃ p,
      aapcs32.placeItems m.registers items (aapcs32.start m) = .ok p ∧
        p.AtCursor (stackBase m) (cursor (phase m) items)) ∧
      ∀ s : Signature ResultType ValueType, ∃ p,
        aapcs32.placeCall m.registers s (aapcs32.start m) = .ok p ∧
          p.AtCursor (stackBase m) (cursor (phase m) s.items) := by
  constructor
  · intro items
    exact ⟨_, placeItems_start m items, Position.atCursor_ofCursor _ _⟩
  · intro s
    refine ⟨_, ?_, Position.atCursor_ofCursor _ _⟩
    rw [Convention.placeCall_eq_placeItems, placeItems_start]

end CallLayout.Aapcs32

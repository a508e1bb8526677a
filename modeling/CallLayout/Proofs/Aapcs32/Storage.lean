import CallLayout.Proofs.Aapcs32.Misalignment
import Mathlib.Algebra.BigOperators.Group.List.Basic

/-!
# Storage and padding under the Arm convention

A value gets at least the storage that it needs, and what it gets beyond that is *padding*. Words
and aggregates are never padded. A 64-bit scalar may be, in the registers to begin with an even
one, and in the stack to begin at a multiple of eight; and if it finds the last register free, it
gives that one up.

The module introduces:

* `need` and `padding`: the bytes that a value needs, and those left out in front of it;
* `Position.storage`: the bytes of registers and of stack handed out at a position;
* `Padded`: a cursor that has left out a number of words in front of its values.

Every 64-bit scalar costs at most one word of padding, except that one of them may cost two: the
one that gives up the last register, on a stack that does not begin at a multiple of eight
(`padding_cases`). Behind it the cursor is in the stack, so this happens once. The main result is
`storage_balance`.
-/

namespace CallLayout.Aapcs32

open Word

/-! ## One value -/

section Cursor

variable {phase v : ℕ} {items : List (Item ResultType ValueType)}

/-- The bytes that a value needs: the size of an argument rounded up to words, and the address of
a result in memory. -/
def need : Item ResultType ValueType → ℕ
  | .result (.value (.blob size)) => if 4 < size.toNat then 4 else 0
  | .result _ => 0
  | .argument (.scalar .u64) | .argument (.scalar .i64) => 8
  | .argument (.scalar _) => 4
  | .argument (.blob size) => roundUp size.toNat 4

/-- The bytes left out in front of a value. -/
def padding (phase : ℕ) (item : Item ResultType ValueType) (v : ℕ) : ℕ :=
  advance phase item v - (v + need item)

theorem advance_of_not_isDoubleWord {item : Item ResultType ValueType}
    (h : ¬ IsDoubleWord item) (phase v : ℕ) : advance phase item v = v + need item := by
  match item with
  | .argument (.scalar .u64) | .argument (.scalar .i64) => exact absurd trivial h
  | .result (.value (.blob size)) =>
    rw [advance, need]
    split <;> rfl
  | .result .unit | .result (.value (.scalar _)) | .argument (.blob _)
  | .argument (.scalar .u8) | .argument (.scalar .u16) | .argument (.scalar .u32)
  | .argument (.scalar .i32) | .argument (.scalar .guestPtr) => rfl

theorem need_of_isDoubleWord {item : Item ResultType ValueType} (h : IsDoubleWord item) :
    need item = 8 := by
  match item with
  | .argument (.scalar .u64) | .argument (.scalar .i64) => rfl

/-- The cursor moves over the padding of a value and over what it needs. -/
theorem advance_eq_add_padding (phase v : ℕ) (item : Item ResultType ValueType) :
    advance phase item v = v + need item + padding phase item v := by
  refine (Nat.add_sub_cancel' ?_).symm
  by_cases h : IsDoubleWord item
  · rw [advance_of_isDoubleWord h, need_of_isDoubleWord h]
    exact add_eight_le_advanceDoubleWord phase v
  · exact (advance_of_not_isDoubleWord h phase v).ge

/-- Only 64-bit scalars are padded. -/
theorem padding_of_not_isDoubleWord {item : Item ResultType ValueType}
    (h : ¬ IsDoubleWord item) (phase v : ℕ) : padding phase item v = 0 := by
  rw [padding, advance_of_not_isDoubleWord h, Nat.sub_self]

/-- A value is padded by at most a word, except for a 64-bit scalar that finds the last register
free on a misaligned stack. -/
theorem padding_cases (hphase : 4 ∣ phase) (hv : 4 ∣ v) (item : Item ResultType ValueType) :
    padding phase item v = 0 ∨ padding phase item v = 4 ∨
      (padding phase item v = 8 ∧ v = 12 ∧ phase % 8 ≠ 0) := by
  by_cases h : IsDoubleWord item
  · rw [padding, advance_of_isDoubleWord h, need_of_isDoubleWord h, advanceDoubleWord, roundUp,
      alignedFrom]
    split <;> omega
  · exact .inl (padding_of_not_isDoubleWord h phase v)

/-! ## The run -/

/-- The number of 64-bit scalars among some values. -/
def doubleWords (items : List (Item ResultType ValueType)) : ℕ :=
  items.countP fun item => IsDoubleWord item

/-- The cursor has left out `words` words in front of the values that it has gone over. -/
structure Padded (phase : ℕ) (items : List (Item ResultType ValueType)) (words : ℕ) : Prop where
  /-- The cursor stands behind what the values need and behind these words. -/
  cursor_eq : cursor phase items = (items.map need).sum + 4 * words
  /-- Only 64-bit scalars are padded, -/
  eq_zero : doubleWords items = 0 → words = 0
  /-- each by a word, as long as the one that gives up the last register has not come. Then the
  cursor is in the stack. -/
  le : words ≤ doubleWords items ∨
    (words = doubleWords items + 1 ∧ phase % 8 ≠ 0 ∧ 16 ≤ cursor phase items)

theorem padded_nil (phase : ℕ) : Padded phase [] 0 where
  cursor_eq := rfl
  eq_zero _ := rfl
  le := .inl (Nat.le_refl 0)

/-- One more value adds its padding. -/
theorem Padded.concat (hphase : 4 ∣ phase) {words : ℕ} (h : Padded phase items words)
    (item : Item ResultType ValueType) :
    Padded phase (items ++ [item]) (words + padding phase item (cursor phase items) / 4) := by
  have hneed : ((items ++ [item]).map need).sum = (items.map need).sum + need item := by simp
  have hcursor := h.cursor_eq
  have hle := h.le
  have hcases := padding_cases hphase (dvd_cursor hphase items) item
  by_cases hitem : IsDoubleWord item
  · have hcount : doubleWords (items ++ [item]) = doubleWords items + 1 := by
      simp [doubleWords, hitem]
    -- Two words are left out in the registers only, so no other value has cost two before.
    constructor
    · rw [cursor_concat, advance_eq_add_padding, hneed]
      omega
    · omega
    · rw [cursor_concat, advance_eq_add_padding, hcount]
      omega
  · have hcount : doubleWords (items ++ [item]) = doubleWords items := by
      simp [doubleWords, hitem]
    have hnone := padding_of_not_isDoubleWord hitem phase (cursor phase items)
    rw [hnone]
    constructor
    · rw [cursor_concat, advance_eq_add_padding, hneed]
      omega
    · rw [hcount]
      exact h.eq_zero
    · rw [cursor_concat, advance_eq_add_padding, hcount]
      omega

theorem exists_padded (hphase : 4 ∣ phase) (items : List (Item ResultType ValueType)) :
    ∃ words, Padded phase items words := by
  induction items using List.reverseRecOn with
  | nil => exact ⟨0, padded_nil phase⟩
  | append_singleton items item ih =>
    obtain ⟨words, h⟩ := ih
    exact ⟨_, h.concat hphase item⟩

/-- A value that costs two words starts behind the third register, and none after it does. -/
theorem not_lt_of_padding_eq_eight (hphase : 4 ∣ phase) {i j : ℕ} (hi : i < items.length)
    (hj : j < items.length) (hpi : padding phase items[i] (cursor phase (items.take i)) = 8)
    (hpj : padding phase items[j] (cursor phase (items.take j)) = 8) : ¬ i < j := by
  intro hlt
  have hci := padding_cases hphase (dvd_cursor hphase (items.take i)) items[i]
  have hcj := padding_cases hphase (dvd_cursor hphase (items.take j)) items[j]
  have hle : cursor phase (items.take (i + 1)) ≤ cursor phase (items.take j) :=
    monotone_cursor_take phase items hlt
  rw [cursor_take_succ phase hi, advance_eq_add_padding] at hle
  omega

end Cursor

/-! ## The storage of a position -/

/-- The bytes handed out: four for each register, and the stack bytes. -/
def Position.storage (p : Position) : ℕ :=
  4 * (aapcs32.registersUsed p).toNat + (aapcs32.stackUsed p).toNat

/-- The storage handed out is what the cursor has gone over, if the stack bytes fit a word. -/
theorem Position.storage_ofCursor (base : UInt64) {v : ℕ} (hv : 4 ∣ v)
    (hfits : v - 16 < 2 ^ 64) : (ofCursor base v).storage = v := by
  rw [storage, toNat_registersUsed_ofCursor, stackUsed_ofCursor, UInt64.toNat_ofNat_of_lt' hfits]
  omega

/-- From the position `p` to the position `q` a value gets so many bytes more than it needs. -/
def Position.Pads (p q : Position) (item : Item ResultType ValueType) (bytes : ℕ) : Prop :=
  q.storage = p.storage + need item + bytes

section Placement

variable {m : Machine} {items : List (Item ResultType ValueType)}
  (hfits : cursor (phase m) items - 16 < 2 ^ 64)
include hfits

theorem storage_positions {k : ℕ} (hk : k ≤ items.length) :
    (positions m items k).storage = cursor (phase m) (items.take k) := by
  have hle : cursor (phase m) (items.take k) ≤ cursor (phase m) (items.take items.length) :=
    monotone_cursor_take (phase m) items hk
  rw [List.take_length] at hle
  exact Position.storage_ofCursor _ (dvd_cursor (dvd_phase m) _) (by omega)

/-- What a step gets beyond its need is the padding of its value. -/
theorem pads_positions_iff {k : ℕ} (hk : k < items.length) (bytes : ℕ) :
    (positions m items k).Pads (positions m items (k + 1)) items[k] bytes ↔
      padding (phase m) items[k] (cursor (phase m) (items.take k)) = bytes := by
  rw [Position.Pads, storage_positions hfits hk, storage_positions hfits hk.le,
    cursor_take_succ _ hk, advance_eq_add_padding]
  omega

end Placement

/-- The Arm convention hands out what its values need and little more. Values in any order whose
stack bytes fit a word get the storage that they need and some words of padding: none without a
64-bit scalar, at most one for each 64-bit scalar if the stack begins at a multiple of eight, and
at most one more than that on any stack. Step by step, what is no 64-bit scalar gets exactly what
it needs, and a 64-bit scalar at most two words more, but two words in at most one step. -/
theorem storage_balance (m : Machine) (items : List (Item ResultType ValueType))
    (hfits : cursor (phase m) items - 16 < 2 ^ 64) :
    ∃ p : ℕ → Position, (aapcs32.Walk m.registers items p ∧ p 0 = aapcs32.start m) ∧
      -- All values together.
      (∃ words, (p items.length).storage = (items.map need).sum + 4 * words ∧
        (doubleWords items = 0 → words = 0) ∧
        (8 ∣ (aapcs32.start m).stackBase.toNat → words ≤ doubleWords items) ∧
        words ≤ doubleWords items + 1) ∧
      -- Each value.
      (∀ k (h : k < items.length), ∃ bytes, (p k).Pads (p (k + 1)) items[k] bytes ∧
        (bytes = 0 ∨ IsDoubleWord items[k] ∧ (bytes = 4 ∨ bytes = 8))) ∧
      ∀ i j (hi : i < items.length) (hj : j < items.length),
        (p i).Pads (p (i + 1)) items[i] 8 → (p j).Pads (p (j + 1)) items[j] 8 → i = j := by
  have hphase := dvd_phase m
  refine ⟨positions m items, ⟨walk_cursor m items, (start_eq_ofCursor m).symm⟩, ?_,
    fun k hk => ?_, fun i j hi hj hpi hpj => ?_⟩
  · obtain ⟨words, hpadded⟩ := exists_padded hphase items
    have hle := hpadded.le
    rw [storage_positions hfits le_rfl, List.take_length]
    refine ⟨words, hpadded.cursor_eq, hpadded.eq_zero, fun hbase => ?_, by omega⟩
    change 8 ∣ (stackBase m).toNat at hbase
    rw [phase] at hle
    omega
  · refine ⟨_, (pads_positions_iff hfits hk _).mpr rfl, ?_⟩
    by_cases hitem : IsDoubleWord items[k]
    · have hcases := padding_cases hphase (dvd_cursor hphase (items.take k)) items[k]
      exact hcases.imp_right fun h => ⟨hitem, h.imp_right And.left⟩
    · exact .inl (padding_of_not_isDoubleWord hitem _ _)
  · rw [pads_positions_iff hfits hi] at hpi
    rw [pads_positions_iff hfits hj] at hpj
    apply le_antisymm
    · exact not_lt.mp (not_lt_of_padding_eq_eight hphase hj hi hpj hpi)
    · exact not_lt.mp (not_lt_of_padding_eq_eight hphase hi hj hpi hpj)

/-- On a stack four bytes behind a multiple of eight, a 64-bit scalar that gives up the last
register costs two words, one more than there are such scalars. -/
theorem storage_balance_last_register_given_up :
    let m : Machine := { Machine.zero with stackPointer := 0x8004 }
    let items : List (Item ResultType ValueType) :=
      [.result (.value (.blob 5)), .argument (.blob 7), .argument (.scalar .i64)]
    cursor (phase m) items - 16 < 2 ^ 64 ∧ doubleWords items = 1 ∧
      ∃ p words, aapcs32.Walk m.registers items p ∧
        (p 3).storage = (items.map need).sum + 4 * words ∧ words ≤ 1 + 1 ∧ words = 2 ∧
        (p 2).Pads (p 3) (.argument (.scalar .i64)) 8 := by
  intro m items
  have hfits : cursor (phase m) items - 16 < 2 ^ 64 := by decide
  obtain ⟨p, ⟨hwalk, hstart⟩, ⟨words, hwords, -, -, hle⟩, -⟩ := storage_balance m items hfits
  have hstorage : ∀ k ≤ 3, (p k).storage = cursor (phase m) (items.take k) := fun k hk => by
    rw [hwalk.unique (walk_cursor m items) (hstart.trans (start_eq_ofCursor m)) hk]
    exact storage_positions hfits hk
  have hend : (p 3).storage = 28 := (hstorage 3 le_rfl).trans (by decide)
  have hneed : (items.map need).sum = 20 := by decide
  refine ⟨hfits, by decide, p, words, hwalk, hwords, hle, ?_, ?_⟩
  · change (p 3).storage = _ at hwords
    omega
  · rw [Position.Pads, hend, hstorage 2 (by decide)]
    decide

end CallLayout.Aapcs32

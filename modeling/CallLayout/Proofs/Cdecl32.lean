import CallLayout.Convention.Cdecl32
import CallLayout.Proofs.Report.Recorder
import CallLayout.Proofs.Rounding
import Mathlib.Algebra.BigOperators.Group.List.Basic

/-!
# Stack bytes under the stack-only C convention

Every value takes a number of stack bytes that depends on its type alone, and a position is the
sum of them: the convention adds words, and `Position.ofTotal` says that this is the exact sum
modulo `2 ^ 64`. The report on a call is that of the sums over its beginnings (`describe_eq`).

The main result is `placement_sums_slots`: the sums, what a position and a report tell of them, and
that the order of the arguments makes no difference where a call ends. It holds also where the
stack pointer, the size of an aggregate or the sum itself goes over the end of a word.
-/

namespace CallLayout.Cdecl32

open Word

/-- The exact number of stack bytes that a value takes. -/
def bytes : Item ResultType ValueType → ℕ
  | .result (.value (.blob size)) => if 8 < size.toNat then 4 else 0
  | .result _ => 0
  | .argument type => roundUp (sizeOf type).toNat 4

/-- The exact number of stack bytes that some values take. -/
def total (items : List (Item ResultType ValueType)) : ℕ := (items.map bytes).sum

/-- The position of a stack at the address `base` of which `n` bytes are handed out. -/
def Position.ofTotal (base : UInt64) (n : ℕ) : Position where
  base := base
  next := base + UInt64.ofNat n

/-- Handing out slots adds their exact size. -/
theorem Position.push_ofTotal (base : UInt64) (n : ℕ) (size : UInt64) :
    (ofTotal base n).push size = ofTotal base (n + roundUp size.toNat 4) := by
  rw [push, alignUp_eq_ofNat (k := 2) rfl, ofTotal, ofTotal, UInt64.ofNat_add, UInt64.add_assoc]
  rfl

/-- Placing a value adds its bytes. -/
theorem place_ofTotal (registers : Registers) (base : UInt64) (n : ℕ)
    (item : Item ResultType ValueType) :
    cdecl32.place registers item (.ofTotal base n) = .ok (.ofTotal base (n + bytes item)) := by
  match item with
  | .result .unit | .result (.value (.scalar _)) => rfl
  | .result (.value (.blob size)) =>
    change Except.ok (if 8 < size.toNat then _ else _) = _
    rw [bytes, Position.push_ofTotal]
    split <;> rfl
  | .argument type => exact congrArg Except.ok (Position.push_ofTotal base n _)

/-- The address of the first argument. -/
def stackBase (m : Machine) : UInt64 := m.stackPointer + returnAddressSize

theorem total_take_succ {items : List (Item ResultType ValueType)} {k : ℕ}
    (h : k < items.length) :
    total (items.take (k + 1)) = total (items.take k) + bytes items[k] := by
  rw [total, List.take_succ_eq_append_getElem h, List.map_append, List.sum_append]
  rfl

theorem total_take_le_succ (items : List (Item ResultType ValueType)) (k : ℕ) :
    total (items.take k) ≤ total (items.take (k + 1)) := by
  refine monotone_take (fun items item => ?_) items (Nat.le_succ k)
  simp [total]

/-- The positions of a placement are those of the sums over each beginning of the values. -/
theorem walk_total (m : Machine) (items : List (Item ResultType ValueType)) :
    cdecl32.Walk m.registers items fun k => .ofTotal (stackBase m) (total (items.take k)) := by
  intro k h
  dsimp only
  rw [total_take_succ h]
  exact place_ofTotal m.registers (stackBase m) _ _

theorem start_eq_ofTotal (m : Machine) : cdecl32.start m = .ofTotal (stackBase m) 0 :=
  congrArg (Position.mk (stackBase m)) (UInt64.add_zero (stackBase m)).symm

/-- The stack bytes handed out do not depend on the address of the stack. -/
theorem stackUsed_ofTotal (base : UInt64) (n : ℕ) :
    cdecl32.stackUsed (.ofTotal base n) = UInt64.ofNat n := by
  change base + UInt64.ofNat n - base = _
  rw [UInt64.add_comm, UInt64.add_sub_cancel]

/-- A call always has a report, and it is that of the sums of its bytes. -/
theorem describe_eq (m : Machine) (s : Signature ResultType ValueType) :
    cdecl32.describe m s = .ok (cdecl32.reportAlong s fun k =>
      .ofTotal (stackBase m) (total (s.items.take k))) :=
  MeteredConvention.describe_eq_reportAlong (walk_total m s.items) (start_eq_ofTotal m).symm

/-! ## Exact sums -/

/-- The size of a value in bytes. -/
def byteSize : ValueType → ℕ
  | .scalar .u8 => 1
  | .scalar .u16 => 2
  | .scalar .u32 | .scalar .i32 | .scalar .guestPtr => 4
  | .scalar .u64 | .scalar .i64 => 8
  | .blob size => size.toNat

/-- An argument takes its size, rounded up to slots of four bytes. -/
theorem bytes_argument (type : ValueType) : bytes (.argument type) = roundUp (byteSize type) 4 := by
  match type with
  | .scalar .u8 | .scalar .u16 | .scalar .u32 | .scalar .i32 | .scalar .u64 | .scalar .i64
  | .scalar .guestPtr | .blob _ => rfl

/-- The position of a placement that started on the machine is reached after `n` stack bytes. -/
structure Position.Sums (p : Position) (m : Machine) (n : ℕ) : Prop where
  /-- The arguments start above the return address, -/
  base : p.base.toNat = (m.stackPointer.toNat + 4) % 2 ^ 64
  /-- the next one lies above all bytes, -/
  next : p.next.toNat = (m.stackPointer.toNat + 4 + n) % 2 ^ 64
  /-- and as many bytes are reported. -/
  stackUsed : (cdecl32.stackUsed p).toNat = n % 2 ^ 64
  /-- No register is. -/
  registersUsed : cdecl32.registersUsed p = 0

theorem toNat_stackBase (m : Machine) :
    (stackBase m).toNat = (m.stackPointer.toNat + 4) % 2 ^ 64 :=
  UInt64.toNat_add _ _

theorem Position.sums_ofTotal (m : Machine) (n : ℕ) : (ofTotal (stackBase m) n).Sums m n where
  base := toNat_stackBase m
  next := by
    -- Both words are remainders already, and so is their sum.
    rw [ofTotal, UInt64.toNat_add, toNat_stackBase, UInt64.toNat_ofNat', ← Nat.add_mod]
  stackUsed := by rw [stackUsed_ofTotal, UInt64.toNat_ofNat']
  registersUsed := rfl

/-- From the start, placing some values ends at the sum of their bytes. -/
theorem placeItems_start (m : Machine) (items : List (Item ResultType ValueType)) :
    cdecl32.placeItems m.registers items (cdecl32.start m) =
      .ok (.ofTotal (stackBase m) (total items)) := by
  have hend := (walk_total m items).placeItems_eq
  rwa [List.take_length, List.take_zero, show total [] = 0 from rfl, ← start_eq_ofTotal] at hend

/-- The sum of the bytes does not depend on the order of the values. -/
theorem placeItems_start_perm (m : Machine) {items items' : List (Item ResultType ValueType)}
    (h : items.Perm items') :
    cdecl32.placeItems m.registers items (cdecl32.start m) =
      cdecl32.placeItems m.registers items' (cdecl32.start m) := by
  have htotal : total items = total items' := (h.map bytes).sum_eq
  rw [placeItems_start, placeItems_start, htotal]

/-- The steps of a report run from each beginning of the sum to the next one. -/
theorem stack_getElem_reportAlong (m : Machine) (s : Signature ResultType ValueType) {k : ℕ}
    (h : k < (cdecl32.reportAlong s fun k =>
      .ofTotal (stackBase m) (total (s.items.take k))).steps.length) :
    ((cdecl32.reportAlong s fun k =>
        .ofTotal (stackBase m) (total (s.items.take k))).steps[k]).stack =
      ⟨UInt64.ofNat (total (s.items.take k)), UInt64.ofNat (total (s.items.take (k + 1)))⟩ := by
  rw [MeteredConvention.getElem_steps_reportAlong s _ h]
  -- The recorder stands at the position before the step, whose stack it reads off.
  change Span.mk _ _ = _
  rw [MeteredConvention.recorderAt, stackUsed_ofTotal, stackUsed_ofTotal]

/-- The stack-only convention sums slots exactly. An argument takes its size rounded up to four
bytes, and a result that is an aggregate of more than eight bytes takes four. Values are always
placed, and the position is their sum above the return address, modulo `2 ^ 64`. So are the ranges
in the report on a call, each from one beginning of the sum to the next. Where a call ends does not
depend on the order of its arguments. -/
theorem placement_sums_slots (m : Machine) :
    -- What each value takes.
    ((∀ type, bytes (.argument type) = roundUp (byteSize type) 4) ∧
      (∀ size, bytes (.result (.value (.blob size))) = if 8 < size.toNat then 4 else 0) ∧
      bytes (.result .unit) = 0 ∧ ∀ type, bytes (.result (.value (.scalar type))) = 0) ∧
    -- Values in any order.
    (∀ items, ∃ p, cdecl32.placeItems m.registers items (cdecl32.start m) = .ok p ∧
      p.Sums m (total items)) ∧
    -- The ranges of a report.
    (∀ s, ∃ r, cdecl32.describe m s = .ok r ∧ r.steps.length = s.items.length ∧
      ∀ k (h : k < r.steps.length),
        (r.steps[k]).stack.start.toNat = total (s.items.take k) % 2 ^ 64 ∧
          (r.steps[k]).stack.stop.toNat = total (s.items.take (k + 1)) % 2 ^ 64) ∧
    -- The order of the arguments.
    ∀ (s : Signature ResultType ValueType) arguments, s.arguments.Perm arguments →
      cdecl32.placeCall m.registers ⟨s.result, arguments⟩ (cdecl32.start m) =
          cdecl32.placeCall m.registers s (cdecl32.start m) ∧
        (cdecl32.describe m ⟨s.result, arguments⟩).map Report.ending =
          (cdecl32.describe m s).map Report.ending := by
  refine ⟨⟨bytes_argument, fun _ => rfl, rfl, fun _ => rfl⟩, fun items => ?_, fun s => ?_,
    fun s _ h => MeteredConvention.placeCall_perm (fun _ _ => placeItems_start_perm m) s h⟩
  · exact ⟨_, placeItems_start m items, Position.sums_ofTotal m _⟩
  · refine ⟨_, describe_eq m s, ?_, fun k hk => ?_⟩
    · rw [MeteredConvention.length_steps_reportAlong, Signature.length_items]
    · rw [stack_getElem_reportAlong m s hk]
      exact ⟨UInt64.toNat_ofNat', UInt64.toNat_ofNat'⟩

/-- The stack pointer is less than a return address below the end of a word, and the aggregate is
so large that rounding its size up gives zero; still every range is exact modulo `2 ^ 64`, and the
arguments may come in the opposite order. -/
theorem placement_sums_slots_wrapping :
    let m : Machine := { Machine.zero with stackPointer := 0xfffffffffffffffd }
    let s : Signature ResultType ValueType :=
      ⟨.value (.blob 9), [.scalar .u8, .blob 0xfffffffffffffffe, .scalar .i64]⟩
    total s.items = 2 ^ 64 + 16 ∧
      (∃ p, cdecl32.placeItems m.registers s.items (cdecl32.start m) = .ok p ∧
        p.base.toNat = 1 ∧ p.next.toNat = 17) ∧
      (∃ r, cdecl32.describe m s = .ok r ∧
        ∃ h : 2 < r.steps.length, (r.steps[2]).stack.start.toNat = 8 ∧
          (r.steps[2]).stack.stop.toNat = 8) ∧
      (cdecl32.describe m ⟨s.result, s.arguments.reverse⟩).map Report.ending =
        (cdecl32.describe m s).map Report.ending := by
  intro m s
  obtain ⟨-, hplace, hreport, hperm⟩ := placement_sums_slots m
  have htotal : total s.items = 2 ^ 64 + 16 := by decide
  obtain ⟨p, hp, hsums⟩ := hplace s.items
  obtain ⟨r, hr, hlength, hranges⟩ := hreport s
  have h : 2 < r.steps.length := by
    rw [hlength]
    decide
  obtain ⟨hstart, hstop⟩ := hranges 2 h
  refine ⟨htotal, ⟨p, hp, hsums.base.trans (by decide), ?_⟩, ⟨r, hr, h, ?_, ?_⟩, ?_⟩
  · exact hsums.next.trans (by rw [htotal]; decide)
  · exact hstart.trans (by decide)
  · exact hstop.trans (by decide)
  · exact (hperm s _ s.arguments.reverse_perm.symm).2

end CallLayout.Cdecl32

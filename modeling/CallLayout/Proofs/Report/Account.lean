import CallLayout.Catalog
import CallLayout.Proofs.Aapcs32.Report
import CallLayout.Proofs.Cdecl32
import CallLayout.Proofs.Syscall64
import CallLayout.Proofs.TypeName

/-!
# Reports as accounts

A report is an exact account of placing a call: it has one step for the result and one for each
argument, each step goes over what lies between the position before it and the one after it, and
neighbouring steps meet. `Report.AccountsFor` collects these facts, and `describe_exact` says
that they hold under every reference convention whenever there is a report, and that there is one
exactly if the call can be placed.

A range may end before it starts, since stack bytes are counted modulo `2 ^ 64`. It does not as
long as `Abi.exactStack`, the number of stack bytes handed out as a natural number, fits a word.
-/

namespace CallLayout

/-! ## The reference conventions as one family -/

namespace Abi

/-- The positions of a reference convention. -/
def Position : Abi → Type
  | .syscall64 => Syscall64.Position
  | .aapcs32 => Aapcs32.Position
  | .cdecl32 => Cdecl32.Position

/-- The reference convention of a name. -/
def convention : (abi : Abi) → MeteredConvention abi.Position ResultType ValueType
  | .syscall64 => CallLayout.syscall64
  | .aapcs32 => CallLayout.aapcs32
  | .cdecl32 => CallLayout.cdecl32

theorem describe_eq_describe_convention (abi : Abi) (m : Machine)
    (s : Signature ResultType ValueType) : abi.describe m s = abi.convention.describe m s := by
  cases abi <;> rfl

/-- The exact number of stack bytes handed out for some values, padding included. -/
def exactStack (abi : Abi) (m : Machine) (items : List (Item ResultType ValueType)) : ℕ :=
  match abi with
  | .syscall64 => 0
  | .aapcs32 => Aapcs32.cursor (Aapcs32.phase m) items - 16
  | .cdecl32 => Cdecl32.total items

variable {abi : Abi} {m : Machine} {items : List (Item ResultType ValueType)}

theorem exactStack_take_le_succ (abi : Abi) (m : Machine)
    (items : List (Item ResultType ValueType)) (k : ℕ) :
    abi.exactStack m (items.take k) ≤ abi.exactStack m (items.take (k + 1)) := by
  cases abi with
  | syscall64 => exact Nat.le_refl 0
  | aapcs32 => exact Nat.sub_le_sub_right (Aapcs32.cursor_take_le_succ _ items k) 16
  | cdecl32 => exact Cdecl32.total_take_le_succ items k

/-- A beginning of some values takes no more stack than all of them. -/
theorem exactStack_take_le (abi : Abi) (m : Machine) (items : List (Item ResultType ValueType))
    (k : ℕ) : abi.exactStack m (items.take k) ≤ abi.exactStack m items := by
  have hmono := monotone_nat_of_le_succ (exactStack_take_le_succ abi m items)
  rcases Nat.le_total k items.length with hle | hle
  · simpa using hmono hle
  · rw [List.take_of_length_le hle]

/-- The stack bytes that a position counts are the exact ones modulo `2 ^ 64`. -/
theorem toNat_stackUsed_of_walk {p : ℕ → abi.Position}
    (h : abi.convention.Walk m.registers items p) (hstart : p 0 = abi.convention.start m) {k : ℕ}
    (hk : k ≤ items.length) :
    (abi.convention.stackUsed (p k)).toNat = abi.exactStack m (items.take k) % 2 ^ 64 := by
  -- The convention's own walk is the only one from the start.
  cases abi with
  | syscall64 => rfl
  | aapcs32 =>
    rw [h.unique (Aapcs32.walk_cursor m items) (hstart.trans (Aapcs32.start_eq_ofCursor m)) hk]
    exact (congrArg UInt64.toNat (Aapcs32.stackUsed_ofCursor _ _)).trans UInt64.toNat_ofNat'
  | cdecl32 =>
    rw [h.unique (Cdecl32.walk_total m items) (hstart.trans (Cdecl32.start_eq_ofTotal m)) hk]
    exact (congrArg UInt64.toNat (Cdecl32.stackUsed_ofTotal _ _)).trans UInt64.toNat_ofNat'

/-- No step gives a register back. -/
theorem registersUsed_le_of_walk {p : ℕ → abi.Position}
    (h : abi.convention.Walk m.registers items p) (hstart : p 0 = abi.convention.start m) {k : ℕ}
    (hk : k < items.length) :
    abi.convention.registersUsed (p k) ≤ abi.convention.registersUsed (p (k + 1)) := by
  cases abi with
  | syscall64 =>
    refine UInt64.le_iff_toNat_le.mpr ?_
    exact le_of_le_of_eq (Nat.le_add_right _ _) (Syscall64.toNat_next_of_place (h k hk)).symm
  | aapcs32 =>
    have hwalk := Aapcs32.walk_cursor m items
    have hstart' := hstart.trans (Aapcs32.start_eq_ofCursor m)
    rw [h.unique hwalk hstart' hk.le, h.unique hwalk hstart' (k := k + 1) hk]
    exact Aapcs32.registersUsed_ofCursor_mono _ (Aapcs32.cursor_take_le_succ _ items k)
  | cdecl32 => exact UInt64.le_refl 0

theorem registersUsed_start (abi : Abi) (m : Machine) :
    abi.convention.registersUsed (abi.convention.start m) = 0 := by
  cases abi <;> rfl

theorem stackUsed_start (abi : Abi) (m : Machine) :
    abi.convention.stackUsed (abi.convention.start m) = 0 := by
  cases abi with
  | syscall64 => rfl
  | aapcs32 | cdecl32 => exact UInt64.sub_self _

end Abi

/-! ## Accounts -/

/-- As long as the stack bytes handed out fit a word, no range of a walk's report is reversed. -/
theorem ranges_le_of_exactStack_lt {abi : Abi} {m : Machine} {s : Signature ResultType ValueType}
    {p : ℕ → abi.Position} (h : abi.convention.Walk m.registers s.items p)
    (hstart : p 0 = abi.convention.start m) (hfits : abi.exactStack m s.items < 2 ^ 64) :
    ∀ l ∈ (abi.convention.reportAlong s p).steps,
      l.registers.start ≤ l.registers.stop ∧ l.stack.start ≤ l.stack.stop := by
  intro l hl
  obtain ⟨k, hk, rfl⟩ := List.getElem_of_mem hl
  rw [MeteredConvention.getElem_steps_reportAlong s p hk]
  rw [MeteredConvention.length_steps_reportAlong] at hk
  have hitem : k < s.items.length := hk.trans_eq s.length_items.symm
  refine ⟨Abi.registersUsed_le_of_walk h hstart hitem, UInt64.le_iff_toNat_le.mpr ?_⟩
  -- No beginning of the call takes more stack than the call, so none wraps around.
  have hexact : ∀ j ≤ s.items.length,
      (abi.convention.stackUsed (p j)).toNat = abi.exactStack m (s.items.take j) := fun j hj =>
    (Abi.toNat_stackUsed_of_walk h hstart hj).trans
      (Nat.mod_eq_of_lt ((Abi.exactStack_take_le abi m s.items j).trans_lt hfits))
  calc (abi.convention.stackUsed (p k)).toNat
      = abi.exactStack m (s.items.take k) := hexact k hitem.le
    _ ≤ abi.exactStack m (s.items.take (k + 1)) := Abi.exactStack_take_le_succ abi m s.items k
    _ = (abi.convention.stackUsed (p (k + 1))).toNat := (hexact (k + 1) hitem).symm

end CallLayout

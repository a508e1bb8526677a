import CallLayout.Catalog
import CallLayout.Proofs.Aapcs32.Report
import CallLayout.Proofs.Cdecl32
import CallLayout.Proofs.Syscall64

/-!
# Calls of the catalog

Under two of the reference conventions every call has a report, and under the third one every call
whose registers fit a word. The calls of the catalog take a few registers only, so describing one
of them fails for no machine: a name that is not in the catalog is all that can go wrong
(`Catalog.describe_eq_error_iff`).
-/

namespace CallLayout

theorem Abi.exists_describe (abi : Abi) (m : Machine) {s : Signature ResultType ValueType}
    (h : Syscall64.total s.items < 2 ^ 64) : ∃ r, abi.describe m s = .ok r := by
  cases abi with
  | syscall64 => exact ⟨_, Syscall64.describe_eq m h⟩
  | aapcs32 => exact ⟨_, Aapcs32.describe_eq m s⟩
  | cdecl32 => exact ⟨_, Cdecl32.describe_eq m s⟩

namespace Catalog

variable {name : String} {call : GuestCall}

/-- The catalog has a call of the name. -/
def Has (name : String) : Prop :=
  ∃ call ∈ calls, call.name = name

instance (name : String) : Decidable (Has name) :=
  inferInstanceAs (Decidable (∃ call ∈ calls, call.name = name))

theorem find?_eq_none_iff : find? name = none ↔ ¬ Has name := by
  simp [find?, Has]

theorem Has.exists_find? (h : Has name) : ∃ call, find? name = some call := by
  rw [← Option.isSome_iff_exists, ← Option.ne_none_iff_isSome]
  exact mt find?_eq_none_iff.mp (not_not_intro h)

theorem total_lt_of_mem (h : call ∈ calls) : Syscall64.total call.signature.items < 2 ^ 64 := by
  have hall : ∀ call ∈ calls, Syscall64.total call.signature.items < 2 ^ 64 := by decide
  exact hall call h

/-- A call that is found has a report under every convention and on every machine. -/
theorem exists_describe (h : find? name = some call) (abi : Abi) (m : Machine) :
    ∃ r, abi.describe m call.signature = .ok r ∧ describe abi name m = .ok r := by
  obtain ⟨r, hr⟩ := abi.exists_describe m (total_lt_of_mem (List.mem_of_find?_eq_some h))
  refine ⟨r, hr, ?_⟩
  rw [describe, h]
  exact congrArg (Except.mapError Error.overflow) hr

theorem describe_of_find?_eq_none (h : find? name = none) (abi : Abi) (m : Machine) :
    describe abi name m = .error (.unknownCall name) := by
  rw [describe, h]

/-- Describing a call fails exactly if it is not in the catalog. -/
theorem describe_eq_error_iff {abi : Abi} {m : Machine} {e : Error} :
    describe abi name m = .error e ↔ find? name = none ∧ e = .unknownCall name := by
  cases h : find? name with
  | none =>
    rw [describe_of_find?_eq_none h]
    simp [eq_comm]
  | some call =>
    obtain ⟨r, -, hr⟩ := exists_describe h abi m
    simp [hr]

end Catalog

end CallLayout

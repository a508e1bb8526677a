import CallLayout.Proofs.Report.Account
import CallLayout.Proofs.Report.Columns

/-!
# Register names in a report

A step names its registers only if all of them have names. Since the steps of a report go over the
registers one after the other, the names of all steps together are a beginning of the convention's
names: it grows with the registers that are handed out (`NamedUpTo.step`) until a range goes past
the last name, and no step after that has names. `NamedUpTo` is kept by every step and thus by a
whole report (`MeteredConvention.namedUpTo_layoutsAlong`).

The main result is `register_names_exact`, which says what this comes to under each of the
reference conventions.
-/

namespace CallLayout

/-! ## One step after another -/

/-- The list `given` of names is what is given out of `names` for the first `n` registers. -/
structure NamedUpTo (names : List String) (n : ℕ) (given : List String) : Prop where
  /-- Names are given from the first one on, without a gap, -/
  beginning : given <+: names
  /-- and to all registers as long as there are names for them. -/
  whole : n ≤ names.length → given = names.take n

/-- The slice between two places, behind what lies before it. -/
theorem take_append_extract {α : Type} (l : List α) {a b : ℕ} (h : a ≤ b) :
    l.take a ++ l.extract a b = l.take b := by
  obtain ⟨k, rfl⟩ := Nat.exists_eq_add_of_le h
  rw [List.take_add, List.extract_eq_take_drop, Nat.add_sub_cancel_left]

/-- The names of one more range go behind those that are given. -/
theorem NamedUpTo.step {P R A : Type} {c : Convention P R A} {a : Span} {given : List String}
    (hle : a.start ≤ a.stop) (h : NamedUpTo c.registerNames a.start.toNat given) :
    NamedUpTo c.registerNames a.stop.toNat (given ++ c.registerNamesIn a) := by
  have hle' : a.start.toNat ≤ a.stop.toNat := UInt64.le_iff_toNat_le.mp hle
  by_cases hwithin : a.stop.toNat ≤ c.registerNames.length
  · have hall : given ++ c.registerNamesIn a = c.registerNames.take a.stop.toNat := by
      rw [h.whole (hle'.trans hwithin), Convention.registerNamesIn_of_le hle hwithin,
        take_append_extract _ hle']
    rw [hall]
    exact ⟨List.take_prefix _ _, fun _ => rfl⟩
  · -- The range goes past the last name, so it gets none.
    rw [c.registerNamesIn_eq, if_neg fun hrange => hwithin hrange.2, List.append_nil]
    exact ⟨h.beginning, fun hfits => absurd hfits hwithin⟩

section Along

variable {P R A : Type} {c : MeteredConvention P R A}

/-- Along positions that give no register back, the names of all steps are those that are given
for the registers handed out. -/
theorem MeteredConvention.namedUpTo_layoutsAlong (log : List LogEntry) {p : ℕ → P}
    (hstart : c.registersUsed (p 0) = 0)
    (hle : ∀ k < log.length, c.registersUsed (p k) ≤ c.registersUsed (p (k + 1))) :
    NamedUpTo c.registerNames (c.registersUsed (p log.length)).toNat
      ((c.layoutsAlong log p).flatMap StepLayout.registerNames) := by
  induction log using List.reverseRecOn with
  | nil =>
    rw [List.length_nil, hstart]
    exact ⟨List.nil_prefix, fun _ => rfl⟩
  | append_singleton log entry ih =>
    have hbefore := ih fun k hk => hle k (by simp; omega)
    have hstep := NamedUpTo.step (a := ⟨_, _⟩) (hle log.length (by simp)) hbefore
    rw [layoutsAlong, List.mapIdx_concat, List.flatMap_append, List.flatMap_singleton,
      List.length_append]
    exact hstep

/-- Along such positions, no step ends before an earlier one does. -/
theorem MeteredConvention.pairwise_stop_layoutsAlong {log : List LogEntry} {p : ℕ → P}
    (hle : ∀ k < log.length, c.registersUsed (p k) ≤ c.registersUsed (p (k + 1))) :
    (c.layoutsAlong log p).Pairwise fun l l' => l.registers.stop ≤ l'.registers.stop := by
  have hchain : ((c.layoutsAlong log p).map fun l => l.registers.stop).IsChain (· ≤ ·) := by
    refine List.isChain_iff_getElem.mpr fun k hk => ?_
    rw [List.length_map, layoutsAlong, List.length_mapIdx] at hk
    simpa [layoutsAlong, layoutBetween, stepLayout, recorderAt] using hle (k + 1) hk
  exact List.pairwise_map.mp (List.isChain_iff_pairwise.mp hchain)

end Along

/-- A range without names ends past the last name, unless it is empty. Then so do all that end
behind it. -/
theorem Convention.registerNamesIn_eq_nil {P R A : Type} {c : Convention P R A} {a b : Span}
    (hrange : a.start < a.stop) (h : c.registerNamesIn a = []) (hle : a.stop ≤ b.stop) :
    c.registerNamesIn b = [] := by
  have hlt : a.start.toNat < a.stop.toNat := UInt64.lt_iff_toNat_lt.mp hrange
  have hle' : a.stop.toNat ≤ b.stop.toNat := UInt64.le_iff_toNat_le.mp hle
  have hpast : c.registerNames.length < a.stop.toNat := by
    by_contra hwithin
    have hlength := congrArg List.length h
    rw [c.registerNamesIn_eq, if_pos ⟨hrange, Nat.not_lt.mp hwithin⟩, List.extract_eq_take_drop,
      List.length_take, List.length_drop, List.length_nil] at hlength
    omega
  rw [c.registerNamesIn_eq, if_neg fun hwithin => by omega]

/-! ## Whole reports -/

/-- The names of the registers of all steps, in order. -/
def Report.registerNames (r : Report) : List String :=
  r.steps.flatMap StepLayout.registerNames

/-- The report names the registers of its steps out of the list `names`. -/
structure Report.NamesRegisters (r : Report) (names : List String) : Prop where
  /-- The names of a step are those of its range, or none if the range goes past the last name. -/
  slice : ∀ l ∈ r.steps, l.registerNames =
    if l.registers.start < l.registers.stop ∧ l.registers.stop.toNat ≤ names.length then
      names.extract l.registers.start.toNat l.registers.stop.toNat
    else []
  /-- All names together are those that are given for the registers handed out. -/
  namedUpTo : NamedUpTo names r.registersUsed.toNat r.registerNames
  /-- Once a step with registers has no names, no later one has any. -/
  unnamed : r.steps.Pairwise fun l l' =>
    l.registers.start < l.registers.stop → l.registerNames = [] → l'.registerNames = []

/-- A step has names only if it has registers. -/
theorem Report.NamesRegisters.start_lt_stop {r : Report} {names : List String}
    (h : r.NamesRegisters names) {l : StepLayout} (hl : l ∈ r.steps) (hne : l.registerNames ≠ []) :
    l.registers.start < l.registers.stop := by
  rw [h.slice l hl] at hne
  split at hne
  next hrange => exact hrange.1
  next => exact absurd rfl hne

/-- A report under any reference convention names its registers out of the convention's names. -/
theorem Abi.namesRegisters_of_describe {abi : Abi} {m : Machine}
    {s : Signature ResultType ValueType} {r : Report} (h : abi.describe m s = .ok r) :
    r.NamesRegisters abi.convention.registerNames := by
  rw [describe_eq_describe_convention] at h
  obtain ⟨p, hwalk, hstart, rfl⟩ := MeteredConvention.describe_eq_ok_iff.mp h
  have hle : ∀ k < s.log.length,
      abi.convention.registersUsed (p k) ≤ abi.convention.registersUsed (p (k + 1)) :=
    fun k hk => registersUsed_le_of_walk hwalk hstart (by simpa using hk)
  have hslice : ∀ l ∈ (abi.convention.reportAlong s p).steps,
      l.registerNames = abi.convention.registerNamesIn l.registers := by
    intro l hl
    obtain ⟨k, hk, rfl⟩ := List.mem_mapIdx.mp hl
    rfl
  refine ⟨fun l hl => (hslice l hl).trans (Convention.registerNamesIn_eq _ _), ?_, ?_⟩
  · have hzero : abi.convention.registersUsed (p 0) = 0 := by
      rw [hstart, registersUsed_start]
    have hnamed := MeteredConvention.namedUpTo_layoutsAlong s.log hzero hle
    rw [s.length_log] at hnamed
    exact hnamed
  · refine (MeteredConvention.pairwise_stop_layoutsAlong hle).imp_of_mem ?_
    intro l l' hl hl' hstop hrange hnil
    rw [hslice l hl] at hnil
    rw [hslice l' hl']
    exact Convention.registerNamesIn_eq_nil hrange hnil hstop

/-- A report names its registers exactly, and none of them twice. Under the Arm convention, which
hands out no more registers than it has names, the names of all steps are those of the registers
handed out. Under the system call convention, so are they up to the sixth register; a range that
goes past it has no names, and from there on no step has. The stack-only convention gives no names.
A step without registers never has any. -/
theorem register_names_exact (abi : Abi) {m : Machine} {s : Signature ResultType ValueType}
    {r : Report} (h : abi.describe m s = .ok r) :
    (match abi with
      | .aapcs32 => r.NamesRegisters ["r0", "r1", "r2", "r3"] ∧ r.registersUsed ≤ 4 ∧
          r.registerNames = ["r0", "r1", "r2", "r3"].take r.registersUsed.toNat
      | .syscall64 => r.NamesRegisters ["rdi", "rsi", "rdx", "r10", "r8", "r9"]
      | .cdecl32 => ∀ l ∈ r.steps, l.registerNames = []) ∧
      r.registerNames.Nodup ∧
      ∀ l ∈ r.steps, l.registerNames ≠ [] → l.registers.start < l.registers.stop := by
  have hnames := Abi.namesRegisters_of_describe h
  refine ⟨?_, ?_, fun l hl => hnames.start_lt_stop hl⟩
  · cases abi with
    | aapcs32 =>
      have hused := Aapcs32.registersUsed_le_of_describe h
      exact ⟨hnames, hused, hnames.namedUpTo.whole (UInt64.le_iff_toNat_le.mp hused)⟩
    | syscall64 => exact hnames
    | cdecl32 =>
      intro l hl
      -- A name would need a register below the zeroth.
      refine (hnames.slice l hl).trans (if_neg fun hrange => ?_)
      have hlt := UInt64.lt_iff_toNat_lt.mp hrange.1
      exact Nat.not_lt_zero _ (hlt.trans_le hrange.2)
  · have hnodup : abi.convention.registerNames.Nodup := by cases abi <;> decide
    exact hnodup.sublist hnames.namedUpTo.beginning.sublist

/-- An aggregate that goes past the sixth register has no names, and what comes after it has none
either. -/
theorem register_names_exact_past_last :
    let s : Signature ResultType ValueType :=
      ⟨.unit, List.replicate 5 (.scalar .u64) ++ [.blob 16, .scalar .u8]⟩
    ∃ r, Abi.syscall64.describe Machine.zero s = .ok r ∧ r.registersUsed = 8 ∧
      r.NamesRegisters ["rdi", "rsi", "rdx", "r10", "r8", "r9"] ∧ r.registerNames.Nodup ∧
      r.registerNames = ["rdi", "rsi", "rdx", "r10", "r8"] := by
  intro s
  have htotal : Syscall64.total s.items = 8 := by decide
  have hdescribe := Syscall64.describe_eq Machine.zero (s := s) (by rw [htotal]; decide)
  obtain ⟨hnames, hnodup, -⟩ := register_names_exact .syscall64 hdescribe
  exact ⟨_, hdescribe, by decide, hnames, hnodup, by decide⟩

end CallLayout

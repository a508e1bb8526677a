import CallLayout.Proofs.Machine.Line
import Mathlib.Data.Nat.Notation

/-!
# What a machine state assigns

A text describes a machine exactly if each of its entries, the lines that are neither blank nor
comments, assigns a value to a target. A target then has the value of the last entry that assigns
to it (`LastAssigned`), or zero if there is none, so that only entries for the same target need to
stay in order. `read_exact` puts this together.

Reading is a run through the lines that carries the machine along, `readFrom`. It takes them one
by one (`readFrom_cons`), and a line does one of three things: it is passed over, it assigns, or it
ends the run. All that is said of whole texts is shown by induction over these.
-/

namespace CallLayout.Machine

open Text (trim)

/-! ## The targets of a machine -/

/-- The value that a target has. -/
def get (m : Machine) : Target → UInt64
  | .stackPointer => m.stackPointer
  | .register index => m.registers.get index

/-- A machine is what its targets hold. -/
theorem eq_iff_get {m m' : Machine} : m = m' ↔ ∀ target, m.get target = m'.get target := by
  constructor
  · rintro rfl target
    rfl
  · intro h
    obtain ⟨registers, stackPointer⟩ := m
    obtain ⟨registers', stackPointer'⟩ := m'
    have hregisters : registers = registers' := Vector.ext fun i hi => h (.register ⟨i, hi⟩)
    have hstackPointer : stackPointer = stackPointer' := h .stackPointer
    rw [hregisters, hstackPointer]

theorem get_assign (m : Machine) (a : Assignment) (target : Target) :
    (m.assign a).get target = if a.target = target then a.value else m.get target := by
  obtain ⟨target', value⟩ := a
  cases target' with
  | stackPointer =>
    cases target with
    | stackPointer => rfl
    | register index => rfl
  | register index' =>
    cases target with
    | stackPointer => rfl
    | register index =>
      change (m.registers.set index' value)[index] =
        if Target.register index' = .register index then value else m.registers[index]
      simp [Vector.getElem_set, Fin.ext_iff]

theorem get_zero (target : Target) : zero.get target = 0 := by
  cases target with
  | stackPointer => rfl
  | register index =>
    change (Vector.replicate registerCount (0 : UInt64))[index] = 0
    simp

/-- Assignments to different targets may be carried out in either order. -/
theorem assign_comm {a b : Assignment} (h : a.target ≠ b.target) (m : Machine) :
    (m.assign a).assign b = (m.assign b).assign a := by
  obtain ⟨target, value⟩ := a
  obtain ⟨target', value'⟩ := b
  cases target with
  | stackPointer =>
    cases target' with
    | stackPointer => exact absurd rfl h
    | register index' => rfl
  | register index =>
    cases target' with
    | stackPointer => rfl
    | register index' =>
      have hne : (index : ℕ) ≠ index' := fun heq => h (congrArg Target.register (Fin.ext heq))
      change Machine.mk _ _ = Machine.mk _ _
      congr 1
      exact Vector.set_comm _ _ hne

/-! ## The run through the lines -/

/-- Reads lines, the first of which has the given number, and carries their assignments out on a
machine. -/
def readFrom (number : ℕ) (lines : List (List Char)) (m : Machine) : Except Error Machine :=
  (readLines number lines).map fun assignments => assignments.foldl assign m

/-- What one line does to a machine, or what is wrong with it. -/
def takeLine (m : Machine) (line : List Char) : Except LineError Machine :=
  (readLine line).map fun assignment? => assignment?.toList.foldl assign m

theorem read_eq_readFrom (text : String) :
    read text = readFrom 1 (Text.lines text.toList) zero := by
  rw [read, readFrom]
  cases readLines 1 (Text.lines text.toList) <;> rfl

section Run

variable {line : List Char} {a : Assignment} (number : ℕ) (lines : List (List Char)) (m : Machine)

theorem isSkipped_iff : isSkipped line ↔ ¬ IsEntry line := by
  cases line with
  | nil => simp [isSkipped, IsEntry]
  | cons c line => simp [isSkipped, IsEntry]

theorem takeLine_of_not_isEntry (h : ¬ IsEntry (trim line)) : m.takeLine line = .ok m := by
  rw [takeLine, readLine, if_pos (isSkipped_iff.mpr h)]
  rfl

theorem takeLine_of_isEntry (h : IsEntry (trim line)) :
    m.takeLine line = (readAssignment (trim line)).map m.assign := by
  rw [takeLine, readLine, if_neg fun hskipped => isSkipped_iff.mp hskipped h]
  cases readAssignment (trim line) <;> rfl

/-- Lines that are the same when trimmed do the same. -/
theorem takeLine_congr {line' : List Char} (h : trim line = trim line') :
    m.takeLine line = m.takeLine line' := by
  rw [takeLine, takeLine, readLine, readLine, h]

/-- A run takes its first line and then the others. -/
theorem readFrom_cons (line : List Char) :
    readFrom number (line :: lines) m =
      (m.takeLine line).mapError (Error.invalidState number) >>=
        readFrom (number + 1) lines := by
  rw [readFrom, readLines, takeLine]
  cases readLine line with
  | error cause => rfl
  | ok assignment? =>
    change ((readLines (number + 1) lines).bind _).map _ = readFrom (number + 1) lines _
    rw [readFrom]
    cases readLines (number + 1) lines with
    | error e => rfl
    | ok assignments => exact congrArg Except.ok List.foldl_append

theorem readFrom_cons_of_not_isEntry (h : ¬ IsEntry (trim line)) :
    readFrom number (line :: lines) m = readFrom (number + 1) lines m := by
  rw [readFrom_cons, takeLine_of_not_isEntry m h]
  rfl

theorem readFrom_cons_of_assigns (h : Assigns (trim line) a) :
    readFrom number (line :: lines) m = readFrom (number + 1) lines (m.assign a) := by
  rw [readFrom_cons, takeLine_of_isEntry m h.isEntry, readAssignment_eq_ok_iff.mpr h]
  rfl

theorem readFrom_cons_of_error {cause : LineError} (h : IsEntry (trim line))
    (herror : readAssignment (trim line) = .error cause) :
    readFrom number (line :: lines) m = .error (.invalidState number cause) := by
  rw [readFrom_cons, takeLine_of_isEntry m h, herror]
  rfl

/-- Every line is passed over, assigns, or ends the run. -/
theorem line_cases (line : List Char) :
    ¬ IsEntry (trim line) ∨ (∃ a, Assigns (trim line) a) ∨
      IsEntry (trim line) ∧ ∃ cause, readAssignment (trim line) = .error cause := by
  by_cases hentry : IsEntry (trim line)
  · obtain ⟨a, -, ha⟩ | ⟨cause, hcause, -⟩ := readAssignment_cases (trim line)
    · exact .inr (.inl ⟨a, ha⟩)
    · exact .inr (.inr ⟨hentry, cause, hcause⟩)
  · exact .inl hentry

end Run

/-! ## Entries -/

/-- The lines that are neither blank nor comments, without the blanks around them. -/
def entriesOf (lines : List (List Char)) : List (List Char) :=
  (lines.map trim).filter fun line => IsEntry line

/-- The entries of a text. -/
def entries (text : String) : List (List Char) :=
  entriesOf (Text.lines text.toList)

theorem entriesOf_cons_of_isEntry {line : List Char} (h : IsEntry (trim line))
    (lines : List (List Char)) : entriesOf (line :: lines) = trim line :: entriesOf lines := by
  simp [entriesOf, h]

theorem entriesOf_cons_of_not_isEntry {line : List Char} (h : ¬ IsEntry (trim line))
    (lines : List (List Char)) : entriesOf (line :: lines) = entriesOf lines := by
  simp [entriesOf, h]

/-- After some entries a target has the value of the last one that assigns to it; if there is
none, it has the value that it had before. -/
def LastAssigned (entries : List (List Char)) (target : Target) (initial value : UInt64) : Prop :=
  (∃ before entry after, entries = before ++ entry :: after ∧ Assigns entry ⟨target, value⟩ ∧
      ∀ later ∈ after, ∀ v, ¬ Assigns later ⟨target, v⟩) ∨
    (∀ entry ∈ entries, ∀ v, ¬ Assigns entry ⟨target, v⟩) ∧ value = initial

/-- An entry in front of others sets its target, as long as none of them does. -/
theorem LastAssigned.cons {entry : List Char} {entries : List (List Char)} {a : Assignment}
    {m : Machine} {target : Target} {value : UInt64} (ha : Assigns entry a)
    (h : LastAssigned entries target ((m.assign a).get target) value) :
    LastAssigned (entry :: entries) target (m.get target) value := by
  obtain ⟨before, last, after, rfl, hlast, hafter⟩ | ⟨hnone, rfl⟩ := h
  · exact .inl ⟨entry :: before, last, after, rfl, hlast, hafter⟩
  rw [get_assign]
  by_cases htarget : a.target = target
  · subst htarget
    rw [if_pos rfl]
    exact .inl ⟨[], entry, entries, rfl, ha, hnone⟩
  · rw [if_neg htarget]
    refine .inr ⟨List.forall_mem_cons.mpr ⟨fun v hv => ?_, hnone⟩, rfl⟩
    exact htarget (congrArg Assignment.target (ha.unique hv))

section Entries

variable {number : ℕ} {lines : List (List Char)} {m m' : Machine}

/-- If every entry assigns then reading gives a machine. -/
theorem exists_readFrom_eq_ok (number : ℕ) (m : Machine)
    (h : ∀ entry ∈ entriesOf lines, ∃ a, Assigns entry a) :
    ∃ m', readFrom number lines m = .ok m' := by
  induction lines generalizing number m with
  | nil => exact ⟨m, rfl⟩
  | cons line lines ih =>
    rcases line_cases line with hskip | ⟨a, ha⟩ | ⟨hentry, cause, hcause⟩
    · rw [entriesOf_cons_of_not_isEntry hskip] at h
      rw [readFrom_cons_of_not_isEntry number lines m hskip]
      exact ih _ _ h
    · rw [entriesOf_cons_of_isEntry ha.isEntry, List.forall_mem_cons] at h
      rw [readFrom_cons_of_assigns number lines m ha]
      exact ih _ _ h.2
    · -- The line would be an entry that assigns nothing.
      rw [entriesOf_cons_of_isEntry hentry, List.forall_mem_cons] at h
      obtain ⟨a, ha⟩ := h.1
      rw [readAssignment_eq_ok_iff.mpr ha] at hcause
      cases hcause

/-- If reading gives a machine then every entry assigns, and the last one to a target sets it. -/
theorem lastAssigned_of_readFrom (h : readFrom number lines m = .ok m') :
    (∀ entry ∈ entriesOf lines, ∃ a, Assigns entry a) ∧
      ∀ target, LastAssigned (entriesOf lines) target (m.get target) (m'.get target) := by
  induction lines generalizing number m with
  | nil =>
    cases h
    exact ⟨nofun, fun target => .inr ⟨nofun, rfl⟩⟩
  | cons line lines ih =>
    rcases line_cases line with hskip | ⟨a, ha⟩ | ⟨hentry, cause, hcause⟩
    · rw [readFrom_cons_of_not_isEntry number lines m hskip] at h
      rw [entriesOf_cons_of_not_isEntry hskip]
      exact ih h
    · rw [readFrom_cons_of_assigns number lines m ha] at h
      rw [entriesOf_cons_of_isEntry ha.isEntry]
      obtain ⟨hassigns, hlast⟩ := ih h
      exact ⟨List.forall_mem_cons.mpr ⟨⟨a, ha⟩, hassigns⟩, fun target => (hlast target).cons ha⟩
    · rw [readFrom_cons_of_error number lines m hentry hcause] at h
      cases h

/-- Two neighbouring lines that assign to different targets may change places. -/
theorem readFrom_swap {first second : List Char} {a b : Assignment}
    (ha : Assigns (trim first) a) (hb : Assigns (trim second) b) (h : a.target ≠ b.target)
    (before after : List (List Char)) (number : ℕ) (m : Machine) :
    readFrom number (before ++ first :: second :: after) m =
      readFrom number (before ++ second :: first :: after) m := by
  induction before generalizing number m with
  | nil =>
    rw [List.nil_append, List.nil_append, readFrom_cons_of_assigns _ _ _ ha,
      readFrom_cons_of_assigns _ _ _ hb, readFrom_cons_of_assigns _ _ _ hb,
      readFrom_cons_of_assigns _ _ _ ha, assign_comm h]
  | cons line before ih =>
    rw [List.cons_append, List.cons_append, readFrom_cons, readFrom_cons]
    exact bind_congr fun m => ih _ _

end Entries

/-- What a text describes. It describes a machine exactly if each of its entries assigns a value
to a target; the value of the last entry for a target is then the target's value, and a target for
which there is none has the value zero. Two neighbouring lines that assign to different targets
may change places without a change of the answer. -/
theorem read_exact (text : String) :
    ((∃ m, read text = .ok m) ↔ ∀ entry ∈ entries text, ∃ a, Assigns entry a) ∧
      (∀ m, read text = .ok m →
        LastAssigned (entries text) .stackPointer 0 m.stackPointer ∧
          ∀ index : Fin registerCount,
            LastAssigned (entries text) (.register index) 0 (m.registers.get index)) ∧
      ∀ (text' : String) (before after : List (List Char)) (first second : List Char)
        (a b : Assignment), Text.lines text.toList = before ++ first :: second :: after →
        Text.lines text'.toList = before ++ second :: first :: after →
        Assigns (trim first) a → Assigns (trim second) b → a.target ≠ b.target →
        read text' = read text := by
  refine ⟨⟨?_, ?_⟩, ?_, ?_⟩
  · rintro ⟨m, h⟩
    rw [read_eq_readFrom] at h
    exact (lastAssigned_of_readFrom h).1
  · intro h
    rw [read_eq_readFrom]
    exact exists_readFrom_eq_ok 1 zero h
  · intro m h
    rw [read_eq_readFrom] at h
    have hlast := (lastAssigned_of_readFrom h).2
    simp only [get_zero] at hlast
    exact ⟨hlast .stackPointer, fun index => hlast (.register index)⟩
  · intro text' before after first second a b htext htext' ha hb hne
    rw [read_eq_readFrom, read_eq_readFrom, htext, htext']
    exact (readFrom_swap ha hb hne before after 1 zero).symm

/-- Three lines name one register in three ways and the last of them wins; the line of another
target may stand before it or behind it. -/
theorem read_exact_one_register_three_names :
    ∃ m, read "r5 = 7\nr05 = 1\r\n# r5 = 9\n r+5 = 0x2\nsp = 3" = .ok m ∧
      read "r5 = 7\nr05 = 1\r\n# r5 = 9\nsp = 3\n r+5 = 0x2" = .ok m ∧
      LastAssigned (entries "r5 = 7\nr05 = 1\r\n# r5 = 9\n r+5 = 0x2\nsp = 3")
        (.register ⟨5, by decide⟩) 0 2 := by
  have hregister : Assigns (trim " r+5 = 0x2".toList) ⟨.register ⟨5, by decide⟩, 2⟩ :=
    readAssignment_eq_ok_iff.mp (by decide)
  have hstackPointer : Assigns (trim "sp = 3".toList) ⟨.stackPointer, 3⟩ :=
    readAssignment_eq_ok_iff.mp (by decide)
  have hread : ∃ m, read "r5 = 7\nr05 = 1\r\n# r5 = 9\n r+5 = 0x2\nsp = 3" = .ok m ∧
      m.registers.get ⟨5, by decide⟩ = 2 := ⟨_, rfl, rfl⟩
  obtain ⟨m, hm, hvalue⟩ := hread
  obtain ⟨-, hlast, hswap⟩ := read_exact "r5 = 7\nr05 = 1\r\n# r5 = 9\n r+5 = 0x2\nsp = 3"
  refine ⟨m, hm, ?_, hvalue ▸ (hlast m hm).2 ⟨5, by decide⟩⟩
  rw [← hm]
  exact hswap _ ["r5 = 7".toList, "r05 = 1".toList, "# r5 = 9".toList] [] " r+5 = 0x2".toList
    "sp = 3".toList _ _ (by decide) (by decide) hregister hstackPointer nofun

end CallLayout.Machine

import CallLayout.Proofs.Machine.Override
import CallLayout.Proofs.Value

/-!
# Writing machine states

Every machine can be written down and read back: one line for each of its targets, in any order,
with the target's name before the equals sign and any spelling of its value behind it, and with
blanks around both (`read_written`).

The module introduces:

* `Machine.assignments`: what has to be written, one assignment for each target;
* `Assignment.WrittenAs`: the lines that write an assignment.

A line that writes an assignment assigns it when it is read (`Assignment.WrittenAs.assigns`), and
assignments that leave out no target lead to the same machine in every order
(`foldl_assign_eq`).
-/

namespace CallLayout.Machine

open Text (isBlank trim)

/-! ## Names -/

/-- The targets of a machine. -/
def targets : List Target :=
  .stackPointer :: (List.finRange registerCount).map .register

theorem mem_targets (target : Target) : target ∈ targets := by
  cases target with
  | stackPointer => exact List.mem_cons_self
  | register index => simp [targets]

/-- The name of a target, with a register's number in decimal. -/
def Target.name : Target → List Char
  | .stackPointer => ['s', 'p']
  | .register index => 'r' :: Numeral.decimalDigits index

section Name

variable (target : Target)

theorem Target.names_name : Names target.name target := by
  cases target with
  | stackPointer => exact .stackPointer
  | register index =>
    exact .register ⟨_, .inl rfl, Numeral.decimalDigits_ne_nil _, Numeral.digitsOf_decimalDigits _⟩

theorem Target.name_ne_nil : target.name ≠ [] := by
  cases target <;> simp [name]

theorem Target.equals_notMem_name : '=' ∉ target.name := by
  cases target with
  | stackPointer => decide
  | register index => simp [name, Numeral.notMem_decimalDigits]

variable {target} in
theorem Target.not_isBlank_of_mem_name {c : Char} (h : c ∈ target.name) : ¬ isBlank c := by
  cases target with
  | stackPointer =>
    obtain rfl | rfl : c = 's' ∨ c = 'p' := by simpa [name] using h
    all_goals decide
  | register index =>
    rcases List.mem_cons.mp h with rfl | h
    · decide
    · exact Numeral.not_isBlank_of_mem_decimalDigits h

end Name

/-! ## Written lines -/

/-- Blanks that may stand within a line. -/
def IsPadding (s : List Char) : Prop :=
  ∀ c ∈ s, isBlank c ∧ c ≠ '\n'

instance (s : List Char) : Decidable (IsPadding s) :=
  List.decidableBAll _ s

/-- The lines that write an assignment: the target's name and a spelling of the value with an
equals sign between them, and padding around both. -/
inductive Assignment.WrittenAs (a : Assignment) : List Char → Prop where
  | intro {indent gap gap' rest value : List Char} :
      IsPadding indent → IsPadding gap → IsPadding gap' → IsPadding rest →
      Value.Spells value a.value →
      WrittenAs a (indent ++ (a.target.name ++ gap ++ '=' :: gap' ++ value) ++ rest)

section Line

variable {a : Assignment} {line : List Char}

theorem IsPadding.isBlank {s : List Char} (h : IsPadding s) : ∀ c ∈ s, isBlank c :=
  fun c hc => (h c hc).1

theorem IsPadding.newline_notMem {s : List Char} (h : IsPadding s) : '\n' ∉ s :=
  fun hc => (h '\n' hc).2 rfl

theorem Assignment.WrittenAs.newline_notMem (h : a.WrittenAs line) : '\n' ∉ line := by
  -- A line feed is a blank, so neither the name nor the value holds one.
  have hblank : isBlank '\n' := by decide
  obtain ⟨hindent, hgap, hgap', hrest, hvalue⟩ := h
  have hname : '\n' ∉ a.target.name := fun hc => Target.not_isBlank_of_mem_name hc hblank
  have hspelling : '\n' ∉ _ := fun hc => hvalue.not_isBlank hc hblank
  simp [hname, hspelling, hindent.newline_notMem, hgap.newline_notMem, hgap'.newline_notMem,
    hrest.newline_notMem]

theorem Assignment.WrittenAs.ne_nil (h : a.WrittenAs line) : line ≠ [] := by
  obtain ⟨-, -, -, -, -⟩ := h
  simp

/-- A line that writes an assignment assigns it. -/
theorem Assignment.WrittenAs.assigns (h : a.WrittenAs line) : Assigns (trim line) a := by
  obtain @⟨indent, gap, gap', rest, value, hindent, hgap, hgap', hrest, hvalue⟩ := h
  -- Trimming stops at the name and at the value, neither of which holds a blank.
  have hline : trim (a.target.name ++ gap ++ '=' :: gap' ++ value) =
      a.target.name ++ gap ++ '=' :: gap' ++ value := by
    refine Text.trim_eq_self (fun c hc => ?_) fun c hc => ?_
    · rw [List.append_assoc, List.append_assoc, List.head?_append_of_ne_nil _ a.target.name_ne_nil]
        at hc
      exact Target.not_isBlank_of_mem_name (List.mem_of_mem_head? hc)
    · rw [List.getLast?_append_of_ne_nil _ hvalue.ne_nil] at hc
      exact hvalue.not_isBlank (List.mem_of_getLast? hc)
  have hname : trim (a.target.name ++ gap) = a.target.name := by
    rw [← List.nil_append a.target.name, Text.trim_append_blanks (by simp) hgap.isBlank]
    exact Text.trim_eq_self
      (fun c hc => Target.not_isBlank_of_mem_name (List.mem_of_mem_head? hc))
      fun c hc => Target.not_isBlank_of_mem_name (List.mem_of_getLast? hc)
  -- So the first equals sign of the line is the one between them.
  have hequals : '=' ∉ a.target.name ++ gap := by
    rw [List.mem_append, not_or]
    exact ⟨a.target.equals_notMem_name, fun hc => absurd (hgap.isBlank '=' hc) (by decide)⟩
  rw [Text.trim_append_blanks hindent.isBlank hrest.isBlank, hline]
  refine ⟨a.target.name ++ gap, gap' ++ value, ⟨by simp, hequals⟩, ?_, ?_⟩
  · simpa using Value.read_of_spells hvalue hgap'.isBlank (List.forall_mem_nil _)
  · rw [hname]
    exact a.target.names_name

end Line

/-! ## All assignments of a machine -/

/-- The assignments that write a machine, one for each of its targets. -/
def assignments (m : Machine) : List Assignment :=
  targets.map fun target => ⟨target, m.get target⟩

/-- Assignments of a machine's own values lead to it, if no target is left out that has another
value before. -/
theorem foldl_assign_eq {as : List Assignment} {m initial : Machine}
    (hvalue : ∀ a ∈ as, a.value = m.get a.target)
    (htarget : ∀ target, initial.get target = m.get target ∨ ∃ a ∈ as, a.target = target) :
    as.foldl assign initial = m := by
  -- An assignment settles its own target and leaves the others as they were, so what is assumed
  -- of the machine at the start is true of the machine after it too.
  induction as generalizing initial with
  | nil => exact eq_iff_get.mpr fun target => (htarget target).resolve_right (by simp)
  | cons a as ih =>
    rw [List.forall_mem_cons] at hvalue
    refine ih hvalue.2 fun target => ?_
    rw [get_assign]
    by_cases h : a.target = target
    · -- From its assignment on the target has the machine's value, whatever comes behind.
      subst h
      exact .inl (by rw [if_pos rfl, hvalue.1])
    rw [if_neg h]
    rcases htarget target with hget | ⟨b, hb, rfl⟩
    · exact .inl hget
    · have hne : b ≠ a := fun heq => h (congrArg Assignment.target heq.symm)
      exact .inr ⟨b, (List.mem_cons.mp hb).resolve_left hne, rfl⟩

/-- The order of the assignments does not matter. -/
theorem foldl_assign_of_perm {as : List Assignment} {m : Machine} (h : as.Perm m.assignments)
    (initial : Machine) : as.foldl assign initial = m := by
  -- Each assignment is one of the machine's own, and each target has one among them.
  refine foldl_assign_eq (fun a ha => ?_) fun target => .inr ⟨⟨target, m.get target⟩, ?_, rfl⟩
  · obtain ⟨target, -, rfl⟩ := List.mem_map.mp (h.mem_iff.mp ha)
    rfl
  · exact h.mem_iff.mpr (List.mem_map.mpr ⟨target, mem_targets target, rfl⟩)

/-- Written lines stay lines when they are joined. -/
theorem isLine_of_writtenAs {as : List Assignment} {texts : List String}
    (h : List.Forall₂ (fun a text => a.WrittenAs text.toList) as texts) :
    ∀ s ∈ texts, s.toList ≠ [] ∧ '\n' ∉ s.toList := by
  induction h with
  | nil => simp
  | cons ha _ ih => exact List.forall_mem_cons.mpr ⟨⟨ha.ne_nil, ha.newline_notMem⟩, ih⟩

/-- Lines each of which assigns are carried out one after the other. -/
theorem readFrom_of_assigns {as : List Assignment} {lines : List (List Char)}
    (h : List.Forall₂ (fun a line => Assigns (trim line) a) as lines) (number : ℕ) (m : Machine) :
    readFrom number lines m = .ok (as.foldl assign m) := by
  induction h generalizing number m with
  | nil => rfl
  | cons hline _ ih =>
    rw [readFrom_cons_of_assigns _ _ _ hline]
    exact ih (number + 1) _

/-- Every machine can be written and read back. Each value can be written in decimal and in
hexadecimal; whatever spelling is chosen for each of them, whatever padding, and in whatever order
the lines come, the text that they make up is read as the machine. -/
theorem read_written (m : Machine) :
    (∀ v : UInt64, (∃ s, Value.SpacedDigits 10 s v.toNat) ∧ ∃ s, Value.SpacedDigits 16 s v.toNat) ∧
      ∀ (as : List Assignment) (texts : List String), as.Perm m.assignments →
        List.Forall₂ (fun a text => a.WrittenAs text.toList) as texts →
        read (Text.join "\n" texts) = .ok m := by
  refine ⟨Value.exists_spacedDigits, fun as texts hperm hwritten => ?_⟩
  -- A line may lose the carriage return at its end, which is trimmed off anyway.
  have hlines : List.Forall₂ (fun line line' => trim line = trim line')
      (texts.map String.toList) (Text.lines (Text.join "\n" texts).toList) := by
    have hends := Text.forall₂_endsAlike_lines_join (isLine_of_writtenAs hwritten)
    exact hends.imp fun _ _ hline => hline.trim_eq
  have hassigns : List.Forall₂ (fun a line => Assigns (trim line) a) as
      (texts.map String.toList) :=
    List.forall₂_map_right_iff.mpr (hwritten.imp fun _ _ ha => ha.assigns)
  calc read (Text.join "\n" texts)
      = readFrom 1 (Text.lines (Text.join "\n" texts).toList) zero := read_eq_readFrom _
    _ = readFrom 1 (texts.map String.toList) zero := (readFrom_congr hlines 1 zero).symm
    _ = .ok (as.foldl assign zero) := readFrom_of_assigns hassigns 1 zero
    _ = .ok m := by rw [foldl_assign_of_perm hperm]

/-- The lines come in reverse order: thirty-two registers in hexadecimal, with a carriage return
before the equals sign, and behind them the greatest stack pointer in decimal. -/
theorem read_written_reversed :
    read (Text.join "\n" ((List.finRange registerCount).reverse.map
      (fun index : Fin registerCount => "r" ++ Numeral.decimal index ++ "\r=\t0X_0fF") ++
        ["sp=18_446744073709551615_"])) =
      .ok ⟨Vector.replicate registerCount 255, 18446744073709551615⟩ := by
  have hempty : IsPadding [] := nofun
  have hregister : ∀ index, Assignment.WrittenAs ⟨.register index, 255⟩
      ("r" ++ Numeral.decimal index ++ "\r=\t0X_0fF").toList := by
    intro index
    have hdigits : Value.SpacedDigits 16 ['_', '0', 'f', 'F'] (255 : UInt64).toNat :=
      ⟨by decide, Numeral.digits?_eq_some_iff.mp (by decide)⟩
    have hreturn : IsPadding ['\r'] := by decide
    have htab : IsPadding ['\t'] := by decide
    have hwritten : Assignment.WrittenAs ⟨.register index, 255⟩ _ :=
      .intro hempty hreturn htab hempty (.hexadecimal (.inr rfl) hdigits)
    -- The line is spelled out here, and left as a number's decimal in the statement.
    simpa [Numeral.decimal, Target.name] using hwritten
  have hstackPointer : Assignment.WrittenAs ⟨.stackPointer, 18446744073709551615⟩
      "sp=18_446744073709551615_".toList := by
    have hdigits : Value.SpacedDigits 10 "18_446744073709551615_".toList
        (18446744073709551615 : UInt64).toNat :=
      ⟨by decide, Numeral.digits?_eq_some_iff.mp (by decide)⟩
    have hwritten : Assignment.WrittenAs ⟨.stackPointer, 18446744073709551615⟩ _ :=
      .intro hempty hempty hempty hempty (.decimal hdigits)
    exact hwritten
  refine (read_written _).2 (((List.finRange registerCount).reverse.map fun index =>
    ⟨.register index, 255⟩) ++ [⟨.stackPointer, 18446744073709551615⟩]) _ ?_ ?_
  · decide
  · refine List.rel_append ?_ (.cons hstackPointer .nil)
    rw [List.forall₂_map_left_iff, List.forall₂_map_right_iff, List.forall₂_same]
    exact fun index _ => hregister index

end CallLayout.Machine

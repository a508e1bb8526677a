import CallLayout.Proofs.Machine.Assignments
import Mathlib.Data.List.Infix

/-!
# The first line that cannot be read

A text that describes no machine has a first line that is an entry and assigns nothing.
`FirstError` is that line with the lines before it and the text of what is wrong with it, all in
terms of the grammar of a line. The answer on such a text is the number of that line and that
text (`read_error_exact`), so that nothing behind the line can change it.
-/

namespace CallLayout.Machine

open Text (trim)

/-- Behind the lines `before`, each of which is blank, a comment or an assignment, stands the line
`line`, which is rejected with the given text. -/
structure FirstError (lines before : List (List Char)) (line : List Char) (message : String) :
    Prop where
  beginning : before ++ [line] <+: lines
  before : ∀ l ∈ before, ¬ IsEntry (trim l) ∨ ∃ a, Assigns (trim l) a
  entry : IsEntry (trim line)
  rejects : Rejects (trim line) message

variable {lines before : List (List Char)} {line : List Char} {message : String}

/-- The first line that cannot be read ends the run; the lines before it are counted, also those
that are passed over. -/
theorem readFrom_of_error {cause : LineError}
    (hbefore : ∀ l ∈ before, ¬ IsEntry (trim l) ∨ ∃ a, Assigns (trim l) a)
    (hentry : IsEntry (trim line)) (hcause : readAssignment (trim line) = .error cause)
    (number : ℕ) (after : List (List Char)) (m : Machine) :
    readFrom number (before ++ line :: after) m =
      .error (.invalidState (number + before.length) cause) := by
  induction before generalizing number m with
  | nil => exact readFrom_cons_of_error number after m hentry hcause
  | cons l before ih =>
    obtain ⟨hl, hbefore⟩ := List.forall_mem_cons.mp hbefore
    have hlength : number + (l :: before).length = number + 1 + before.length := by
      rw [List.length_cons]
      omega
    rw [List.cons_append, hlength]
    rcases hl with hskip | ⟨a, ha⟩
    · rw [readFrom_cons_of_not_isEntry _ _ _ hskip]
      exact ih hbefore _ _
    · rw [readFrom_cons_of_assigns _ _ _ ha]
      exact ih hbefore _ _

/-- A text with a first error is answered with that error, whatever follows it. -/
theorem FirstError.exists_cause (h : FirstError lines before line message) :
    ∃ cause : LineError, cause.message = message ∧
      ∀ text : String, before ++ [line] <+: Text.lines text.toList →
        read text = .error (.invalidState (before.length + 1) cause) := by
  obtain ⟨cause, hcause, hmessage⟩ := rejects_iff.mp h.rejects
  refine ⟨cause, hmessage.symm, ?_⟩
  rintro text ⟨after, htext⟩
  rw [List.append_assoc] at htext
  rw [read_eq_readFrom, ← htext, Nat.add_comm]
  exact readFrom_of_error h.before h.entry hcause 1 after zero

/-- A run that fails has a first error. -/
theorem exists_firstError_of_readFrom {number : ℕ} {m : Machine} {e : Error}
    (h : readFrom number lines m = .error e) :
    ∃ before line cause, e = .invalidState (number + before.length) cause ∧
      FirstError lines before line cause.message := by
  induction lines generalizing number m with
  | nil => cases h
  | cons l lines ih =>
    -- A line in front that can be read is one more of those before the error.
    have hcons : (¬ IsEntry (trim l) ∨ ∃ a, Assigns (trim l) a) →
        (∃ before line cause, e = .invalidState (number + 1 + before.length) cause ∧
          FirstError lines before line cause.message) →
        ∃ before line cause, e = .invalidState (number + before.length) cause ∧
          FirstError (l :: lines) before line cause.message := by
      rintro hl ⟨before, line, cause, rfl, hfirst⟩
      refine ⟨l :: before, line, cause, ?_, ?_⟩
      · rw [List.length_cons, Nat.add_assoc, Nat.add_comm 1]
      · exact ⟨List.cons_prefix_cons.mpr ⟨rfl, hfirst.beginning⟩,
          List.forall_mem_cons.mpr ⟨hl, hfirst.before⟩, hfirst.entry, hfirst.rejects⟩
    rcases line_cases l with hskip | ⟨a, ha⟩ | ⟨hentry, cause, hcause⟩
    · rw [readFrom_cons_of_not_isEntry _ _ _ hskip] at h
      exact hcons (.inl hskip) (ih h)
    · rw [readFrom_cons_of_assigns _ _ _ ha] at h
      exact hcons (.inr ⟨a, ha⟩) (ih h)
    · rw [readFrom_cons_of_error _ _ _ hentry hcause] at h
      cases h
      exact ⟨[], l, cause, rfl, ⟨lines, rfl⟩, nofun, hentry, rejects_iff.mpr ⟨cause, hcause, rfl⟩⟩

theorem exists_invalidState_of_read {text : String} {e : Error} (h : read text = .error e) :
    ∃ line cause, e = .invalidState line cause := by
  rw [read_eq_readFrom] at h
  obtain ⟨before, line, cause, rfl, -⟩ := exists_firstError_of_readFrom h
  exact ⟨_, cause, rfl⟩

/-- How reading fails. An error names the first line of the text that cannot be read by its
number, counted from one over all lines, with the text of what is wrong with that line alone; and
where there is such a line it is what the answer names. Texts that have the same lines up to there
have the same answer. -/
theorem read_error_exact (text : String) :
    (∀ e, read text = .error e → ∃ before line cause,
        e = .invalidState (before.length + 1) cause ∧
          FirstError (Text.lines text.toList) before line cause.message) ∧
      (∀ before line message, FirstError (Text.lines text.toList) before line message →
        ∃ cause : LineError, cause.message = message ∧
          read text = .error (.invalidState (before.length + 1) cause)) ∧
      ∀ before line message, FirstError (Text.lines text.toList) before line message →
        ∀ text' : String, before ++ [line] <+: Text.lines text'.toList → read text' = read text := by
  refine ⟨fun e h => ?_, fun before line message h => ?_, fun before line message h text' h' => ?_⟩
  · rw [read_eq_readFrom] at h
    obtain ⟨before, line, cause, rfl, hfirst⟩ := exists_firstError_of_readFrom h
    exact ⟨before, line, cause, by rw [Nat.add_comm], hfirst⟩
  · obtain ⟨cause, hmessage, hread⟩ := h.exists_cause
    exact ⟨cause, hmessage, hread text h.beginning⟩
  · obtain ⟨cause, -, hread⟩ := h.exists_cause
    rw [hread text h.beginning, hread text' h']

/-- The blank line counts, the wrong value is reported and not the register beyond the last one,
and the line behind it is not looked at. -/
theorem read_error_exact_value_before_name :
    ∃ cause : LineError,
      cause.message = "Invalid value 'zz', expected a decimal or 0x-prefixed hex number" ∧
        read "sp = 1\n\nr32 = zz\nbogus" = .error (.invalidState 3 cause) := by
  refine (read_error_exact _).2.1 ["sp = 1".toList, []] "r32 = zz".toList _ ⟨?_, ?_, ?_, ?_⟩
  · decide
  · intro l hl
    simp only [List.mem_cons, List.not_mem_nil, or_false] at hl
    rcases hl with rfl | rfl
    · exact .inr ⟨⟨.stackPointer, 1⟩, readAssignment_eq_ok_iff.mp (by decide)⟩
    · exact .inl (by decide)
  · decide
  · exact rejects_iff.mpr ⟨.invalidValue "zz", by decide, rfl⟩

end CallLayout.Machine

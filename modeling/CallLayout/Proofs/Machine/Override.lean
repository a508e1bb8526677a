import CallLayout.Proofs.Machine.Assignments
import CallLayout.Proofs.Value

/-!
# A stack pointer from outside the text

A stack pointer that is given beside a text is worth one more line `sp = VALUE` at the end of the
text (`ofSources_eq_read`), whatever the text ends with and also where it cannot be read: reading
goes on from the machine that the text describes (`readFrom_append`), the line itself can always
be read, and an error of the text comes before it.

A run through lines looks at nothing but the trimmed lines (`readFrom_congr`), so that neither
the line feed between the text and the new line nor a carriage return before it matters.
-/

namespace CallLayout.Machine

open Text (trim)

/-! ## Runs through the lines -/

/-- Reading in two parts: the second part goes on from what the first one reached. -/
theorem readFrom_append (number : ℕ) (lines rest : List (List Char)) (m : Machine) :
    readFrom number (lines ++ rest) m =
      readFrom number lines m >>= readFrom (number + lines.length) rest := by
  induction lines generalizing number m with
  | nil => rfl
  | cons line lines ih =>
    rw [List.cons_append, List.length_cons, Nat.add_comm lines.length, ← Nat.add_assoc,
      readFrom_cons, readFrom_cons, bind_assoc]
    exact bind_congr fun m => ih _ _

/-- Lines that are the same when trimmed are read alike. -/
theorem readFrom_congr {lines lines' : List (List Char)}
    (h : List.Forall₂ (fun line line' => trim line = trim line') lines lines') (number : ℕ)
    (m : Machine) : readFrom number lines m = readFrom number lines' m := by
  induction h generalizing number m with
  | nil => rfl
  | cons hline _ ih =>
    rw [readFrom_cons, readFrom_cons, takeLine_congr m hline]
    exact bind_congr fun m => ih _ _

/-- A line feed at the end of a text makes no difference. -/
theorem readFrom_lines_concat (number : ℕ) (s : List Char) (m : Machine) :
    readFrom number (Text.lines (s ++ ['\n'])) m = readFrom number (Text.lines s) m := by
  by_cases h : Text.IsTerminated s
  · -- It adds an empty line, which is passed over.
    have hempty : ∀ k, readFrom k (Text.lines ['\n']) = .ok := by
      intro k
      funext m
      exact readFrom_cons_of_not_isEntry k [] m (by decide)
    rw [Text.lines_append h, readFrom_append, hempty]
    cases readFrom number (Text.lines s) m <;> rfl
  · refine (readFrom_congr ?_ number m).symm
    exact (Text.forall₂_endsAlike_lines h).imp fun _ _ hline => hline.trim_eq

/-! ## The line of a stack pointer -/

/-- The line that sets the stack pointer to a value, written in decimal. -/
def stackPointerLine (v : UInt64) : List Char :=
  "sp = ".toList ++ Numeral.decimalDigits v.toNat

theorem trim_stackPointerLine (v : UInt64) : trim (stackPointerLine v) = stackPointerLine v := by
  have hs : ¬ Text.isBlank 's' := by decide
  refine Text.trim_eq_self (by simpa [stackPointerLine] using hs) fun c hc => ?_
  rw [stackPointerLine, List.getLast?_append_of_ne_nil _ (Numeral.decimalDigits_ne_nil _)] at hc
  exact Numeral.not_isBlank_of_mem_decimalDigits (List.mem_of_getLast? hc)

theorem lines_stackPointerLine (v : UInt64) :
    Text.lines (stackPointerLine v) = [stackPointerLine v] := by
  refine Text.lines_of_newline_notMem (by simp [stackPointerLine]) ?_
  simp [stackPointerLine, Numeral.notMem_decimalDigits]

theorem assigns_stackPointerLine (v : UInt64) :
    Assigns (stackPointerLine v) ⟨.stackPointer, v⟩ := by
  refine ⟨"sp ".toList, ' ' :: Numeral.decimalDigits v.toNat, ⟨rfl, by decide⟩, ?_,
    .stackPointer⟩
  have hblank : ∀ c ∈ [' '], Text.isBlank c := List.forall_mem_singleton.mpr (by decide)
  simpa using
    Value.read_of_spells (Value.spells_decimalDigits v) hblank (List.forall_mem_nil _)

/-- The line sets the stack pointer of whatever machine was read before it. -/
theorem readFrom_stackPointerLine (v : UInt64) (number : ℕ) :
    readFrom number (Text.lines (stackPointerLine v)) = fun m => .ok (m.setStackPointer v) := by
  have hassigns : Assigns (trim (stackPointerLine v)) ⟨.stackPointer, v⟩ := by
    rw [trim_stackPointerLine]
    exact assigns_stackPointerLine v
  funext m
  rw [lines_stackPointerLine, readFrom_cons_of_assigns _ _ _ hassigns]
  rfl

/-- A stack pointer given beside a text has the effect of one more line of the text, on the
machine and on the error alike; without a text that line is all there is. -/
theorem ofSources_eq_read (text : String) (v : UInt64) :
    ofSources (some text) (some v) = read (text ++ "\n" ++ "sp = " ++ Numeral.ofWord v) ∧
      ofSources none (some v) = read ("sp = " ++ Numeral.ofWord v) := by
  have hline : ("sp = " ++ Numeral.ofWord v).toList = stackPointerLine v := by
    simp [stackPointerLine, Numeral.ofWord, Numeral.decimal]
  constructor
  · have htext : (text ++ "\n" ++ "sp = " ++ Numeral.ofWord v).toList =
        text.toList ++ '\n' :: stackPointerLine v := by
      simp [stackPointerLine, Numeral.ofWord, Numeral.decimal]
    rw [read_eq_readFrom, htext, Text.lines_append_newline, readFrom_append,
      readFrom_lines_concat, readFrom_stackPointerLine, ← read_eq_readFrom]
    rfl
  · rw [read_eq_readFrom, hline, readFrom_stackPointerLine]
    rfl

end CallLayout.Machine

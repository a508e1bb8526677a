import CallLayout.Proofs.Machine.FirstError
import CallLayout.Proofs.Machine.Override

/-!
# Line ends, blank lines and comments

What a machine state says does not depend on how it is laid out in lines. A carriage return may
stand before every line feed, and a line that is passed over may be put in between any two lines:
the text still describes the same machine, and where it cannot be read the same is wrong with the
same line. Only the number of that line is one greater if it stands behind a new one
(`read_reformatted`).

The module introduces:

* `PassedOver`: the blank lines and the comments, in terms of their characters;
* `Error.countedOn`: an error whose line is counted from a later number on.

A run counts its lines from the number of the first one, so that it fails with a later number if it
begins with one (`readFrom_add`), and the number always is that of one of its lines
(`bounds_of_readFrom`).
-/

namespace CallLayout

/-- The error with its line counted on by some lines. -/
def Error.countedOn (k : ℕ) : Error → Error
  | .invalidState line cause => .invalidState (line + k) cause
  | e => e

namespace Machine

open Text (isBlank trim)

/-! ## Lines that are passed over -/

/-- The line holds blanks only, or nothing but blanks before a number sign. -/
inductive PassedOver : List Char → Prop where
  | blank {line : List Char} : (∀ c ∈ line, isBlank c) → PassedOver line
  | comment {indent text : List Char} :
      (∀ c ∈ indent, isBlank c) → PassedOver (indent ++ '#' :: text)

/-- A line is no entry exactly if it is blank or a comment. -/
theorem not_isEntry_trim_iff {line : List Char} : ¬ IsEntry (trim line) ↔ PassedOver line := by
  constructor
  · intro h
    induction line with
    | nil => exact .blank nofun
    | cons c line ih =>
      by_cases hc : isBlank c
      · rw [Text.trim_cons_of_isBlank hc] at h
        cases ih h with
        | blank hline => exact .blank (List.forall_mem_cons.mpr ⟨hc, hline⟩)
        | comment hindent => exact .comment (List.forall_mem_cons.mpr ⟨hc, hindent⟩)
      · -- The first character that is no blank decides.
        rw [Text.trim_cons_of_not_isBlank hc] at h
        obtain rfl : c = '#' := by simpa [IsEntry] using h
        exact .comment (List.forall_mem_nil _)
  · rintro (hline | @⟨indent, text, hindent⟩)
    · have htrim := Text.trim_append_blanks hline (List.forall_mem_nil _) []
      rw [List.append_nil, List.append_nil] at htrim
      rw [htrim]
      decide
    · have htrim := Text.trim_append_blanks hindent (List.forall_mem_nil _) ('#' :: text)
      rw [List.append_nil] at htrim
      rw [htrim, Text.trim_cons_of_not_isBlank (by decide)]
      simp [IsEntry]

/-! ## The numbers of the lines -/

section Run

variable {number : ℕ} {lines : List (List Char)} {m : Machine}

/-- A run that begins with a later number does the same, and fails with a later number. -/
theorem readFrom_add (number k : ℕ) (lines : List (List Char)) (m : Machine) :
    readFrom (number + k) lines m = (readFrom number lines m).mapError (Error.countedOn k) := by
  induction lines generalizing number m with
  | nil => rfl
  | cons line lines ih =>
    rw [readFrom_cons, readFrom_cons, Nat.add_right_comm]
    cases m.takeLine line with
    | error cause => rfl
    | ok m' => exact ih _ _

/-- The number that a run fails with is that of one of its lines. -/
theorem bounds_of_readFrom {e : Error} (h : readFrom number lines m = .error e) :
    ∃ line cause, e = .invalidState line cause ∧ number ≤ line ∧ line < number + lines.length := by
  obtain ⟨before, line, cause, rfl, hfirst⟩ := exists_firstError_of_readFrom h
  have hlength := hfirst.beginning.length_le
  rw [List.length_append, List.length_singleton] at hlength
  exact ⟨_, cause, rfl, by omega, by omega⟩

/-- A line that is passed over changes nothing but the numbers of the lines behind it. -/
theorem readFrom_insert {line : List Char} (h : PassedOver line) (number : ℕ)
    (before after : List (List Char)) (m : Machine) :
    readFrom number (before ++ line :: after) m =
      readFrom number before m >>= fun m =>
        (readFrom (number + before.length) after m).mapError (Error.countedOn 1) := by
  rw [readFrom_append]
  refine bind_congr fun m => ?_
  rw [readFrom_cons_of_not_isEntry _ _ _ (not_isEntry_trim_iff.mpr h), readFrom_add]

end Run

/-! ## Texts -/

/-- A carriage return may stand before every line feed. -/
theorem read_withReturns (text : String) :
    read (String.ofList (Text.withReturns text.toList)) = read text := by
  rw [read_eq_readFrom, read_eq_readFrom, String.toList_ofList]
  refine readFrom_congr ?_ 1 zero
  exact (Text.forall₂_endsAlike_lines_withReturns text.toList).imp fun _ _ hline => hline.trim_eq

section Insertion

variable {before skipped : String} (hbefore : Text.IsTerminated before.toList)
  (hnewline : '\n' ∉ skipped.toList) (hskipped : PassedOver skipped.toList) (after : String)
include hbefore

/-- A text is read in two parts if the second one starts a line. -/
theorem read_append : read (before ++ after) =
    readFrom 1 (Text.lines before.toList) zero >>=
      readFrom (1 + (Text.lines before.toList).length) (Text.lines after.toList) := by
  rw [read_eq_readFrom, String.toList_append, Text.lines_append hbefore, readFrom_append]

include hnewline hskipped

/-- A line that is passed over moves the numbers of what is wrong behind it by one. -/
theorem read_insert : read (before ++ skipped ++ "\n" ++ after) =
    readFrom 1 (Text.lines before.toList) zero >>= fun m =>
      (readFrom (1 + (Text.lines before.toList).length) (Text.lines after.toList) m).mapError
        (Error.countedOn 1) := by
  obtain ⟨line, hline, hlines⟩ := Text.exists_lines_append_newline hnewline after.toList
  have htext : (before ++ skipped ++ "\n" ++ after).toList =
      before.toList ++ (skipped.toList ++ '\n' :: after.toList) := by simp
  -- Of the line that is put in, a carriage return at its end may be lost.
  have hpassed : PassedOver line := by
    rwa [← not_isEntry_trim_iff, ← hline.trim_eq, not_isEntry_trim_iff]
  rw [read_eq_readFrom, htext, Text.lines_append hbefore, hlines, readFrom_insert hpassed]

end Insertion

/-- Line ends, blank lines and comments do not matter. With a carriage return before every line
feed the answer on a text is the same. So it is with one more blank line or comment between two
lines, behind the last one or in front of the first one, but for the number of the line that
cannot be read, which is one greater exactly if that line stands behind the new one. -/
theorem read_reformatted :
    (∀ text : String, read (String.ofList (Text.withReturns text.toList)) = read text) ∧
      ∀ before skipped after : String, Text.IsTerminated before.toList →
        '\n' ∉ skipped.toList → PassedOver skipped.toList →
        (∀ m, read (before ++ after) = .ok m →
          read (before ++ skipped ++ "\n" ++ after) = .ok m) ∧
        ∀ e, read (before ++ after) = .error e → ∃ line cause, e = .invalidState line cause ∧
          read (before ++ skipped ++ "\n" ++ after) =
            .error (.invalidState
              (if (Text.lines before.toList).length < line then line + 1 else line) cause) := by
  refine ⟨read_withReturns, fun before skipped after hbefore hnewline hskipped => ?_⟩
  rw [read_append hbefore, read_insert hbefore hnewline hskipped]
  cases hfirst : readFrom 1 (Text.lines before.toList) zero with
  | error e =>
    -- The line that cannot be read stands before the new one, which is not reached.
    obtain ⟨line, cause, rfl, -, hline⟩ := bounds_of_readFrom hfirst
    refine ⟨nofun, ?_⟩
    rintro _ ⟨⟩
    refine ⟨line, cause, rfl, ?_⟩
    rw [if_neg (by omega)]
    rfl
  | ok m =>
    change (∀ m', readFrom _ _ m = .ok m' → (readFrom _ _ m).mapError _ = .ok m') ∧
      ∀ e, readFrom _ _ m = .error e → ∃ line cause, _ ∧ (readFrom _ _ m).mapError _ = _
    cases hrest : readFrom (1 + (Text.lines before.toList).length) (Text.lines after.toList) m with
    | ok m' => exact ⟨fun _ h => h, nofun⟩
    | error e =>
      obtain ⟨line, cause, rfl, hline, -⟩ := bounds_of_readFrom hrest
      refine ⟨nofun, ?_⟩
      rintro _ ⟨⟩
      refine ⟨line, cause, rfl, ?_⟩
      rw [if_pos (by omega)]
      rfl

/-- A comment with an equals sign and a carriage return is put behind a line that ends with one,
and the register that the machine lacks is then named in the fourth line. -/
theorem read_reformatted_comment_before_error :
    Text.IsTerminated "sp = 1\r\n".toList ∧ PassedOver " \t# sp = zz\r".toList ∧
      read "sp = 1\r\n\nr32 = 4" = .error (.invalidState 3 (.registerOutOfRange 32)) ∧
      read ("sp = 1\r\n" ++ " \t# sp = zz\r" ++ "\n" ++ "\nr32 = 4") =
        .error (.invalidState 4 (.registerOutOfRange 32)) := by
  have hbefore : Text.IsTerminated "sp = 1\r\n".toList := .inr (by decide)
  have hskipped : PassedOver " \t# sp = zz\r".toList := not_isEntry_trim_iff.mp (by decide)
  have hread : read ("sp = 1\r\n" ++ "\nr32 = 4") =
      .error (.invalidState 3 (.registerOutOfRange 32)) := by decide
  obtain ⟨line, cause, heq, hinsert⟩ :=
    (read_reformatted.2 _ _ "\nr32 = 4" hbefore (by decide) hskipped).2 _ hread
  cases heq
  exact ⟨hbefore, hskipped, hread, hinsert⟩

end Machine

end CallLayout

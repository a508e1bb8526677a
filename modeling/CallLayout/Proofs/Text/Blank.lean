import CallLayout.Text.Blank
import Mathlib.Data.List.Induction
import Mathlib.Data.List.TakeWhile

/-!
# Trimmed texts

What is left of a text without the blanks around it. `Trims` says so without saying how it is
found: the text is what was taken off in front, what is left, and what was taken off behind, and
what is left neither begins nor ends with a blank. There is one such rest, and trimming finds it
(`trim_eq_iff`).
-/

namespace CallLayout.Text

/-- A blank at the end of a text is taken off. -/
theorem trim_concat {c : Char} (h : isBlank c) (s : List Char) : trim (s ++ [c]) = trim s := by
  have hend : ∀ t, trimEnd (t ++ [c]) = trimEnd t := by
    intro t
    simp [trimEnd, h]
  rw [trim, trim, trimStart, trimStart, List.dropWhile_append]
  split
  next hall => simp [List.isEmpty_iff.mp hall, h]
  next => exact hend _

/-- What begins with no blank keeps its beginning. -/
theorem trim_cons_of_not_isBlank {c : Char} (h : ¬ isBlank c) (s : List Char) :
    trim (c :: s) = c :: trimEnd s := by
  have hstart : trimStart (c :: s) = c :: s := List.dropWhile_cons_of_neg h
  rw [trim, hstart, trimEnd, trimEnd, List.reverse_cons, List.dropWhile_append]
  split
  next hall =>
    rw [List.isEmpty_iff.mp hall, List.dropWhile_cons_of_neg h]
    rfl
  next => rw [List.reverse_append]; rfl

theorem trim_cons_of_isBlank {c : Char} (h : isBlank c) (s : List Char) : trim (c :: s) = trim s :=
  congrArg trimEnd (List.dropWhile_cons_of_pos h)

/-- Blanks around a text are taken off, however many there are. -/
theorem trim_append_blanks {before after : List Char} (hbefore : ∀ c ∈ before, isBlank c)
    (hafter : ∀ c ∈ after, isBlank c) (s : List Char) : trim (before ++ s ++ after) = trim s := by
  -- The blanks behind the text come off from the last one, those in front from the first one.
  induction after using List.reverseRecOn with
  | nil =>
    rw [List.append_nil]
    induction before with
    | nil => rfl
    | cons c before ih =>
      rw [List.forall_mem_cons] at hbefore
      rw [List.cons_append, trim_cons_of_isBlank hbefore.1, ih hbefore.2]
  | append_singleton after c ih =>
    rw [List.forall_mem_append, List.forall_mem_singleton] at hafter
    rw [← List.append_assoc, trim_concat hafter.2, ih hafter.1]

/-- A text with no blank at either end is left as it is. -/
theorem trim_eq_self {s : List Char} (hhead : ∀ c ∈ s.head?, ¬ isBlank c)
    (hlast : ∀ c ∈ s.getLast?, ¬ isBlank c) : trim s = s := by
  have hstart : ∀ t : List Char, (∀ c ∈ t.head?, ¬ isBlank c) → t.dropWhile isBlank = t := by
    intro t ht
    cases t with
    | nil => rfl
    | cons c t => exact List.dropWhile_cons_of_neg (ht c rfl)
  rw [trim, trimStart, hstart s hhead, trimEnd, hstart s.reverse, List.reverse_reverse]
  rwa [List.head?_reverse]

/-! ## What is left -/

/-- The second text is the first one without the blanks around it. -/
structure Trims (s t : List Char) : Prop where
  /-- Nothing but blanks is taken off. -/
  exists_blanks : ∃ before after, s = before ++ t ++ after ∧ (∀ c ∈ before, isBlank c) ∧
    ∀ c ∈ after, isBlank c
  /-- What is left does not begin with a blank, -/
  head : ∀ c ∈ t.head?, ¬ isBlank c
  /-- nor does it end with one. -/
  last : ∀ c ∈ t.getLast?, ¬ isBlank c

theorem exists_eq_trimEnd_append (s : List Char) :
    ∃ after, s = trimEnd s ++ after ∧ ∀ c ∈ after, isBlank c := by
  refine ⟨(s.reverse.takeWhile isBlank).reverse, ?_, fun c hc => ?_⟩
  · rw [trimEnd, ← List.reverse_append, List.takeWhile_append_dropWhile, List.reverse_reverse]
  · exact List.mem_takeWhile_imp (List.mem_reverse.mp hc)

theorem not_isBlank_of_mem_getLast?_trimEnd {s : List Char} {c : Char}
    (h : c ∈ (trimEnd s).getLast?) : ¬ isBlank c := by
  rw [trimEnd, List.getLast?_reverse] at h
  have hhead := List.head?_dropWhile_not isBlank s.reverse
  rw [Option.mem_def.mp h] at hhead
  simpa using hhead

/-- Trimming leaves what is left without the blanks around. -/
theorem trims_trim (s : List Char) : Trims s (trim s) := by
  induction s with
  | nil => exact ⟨⟨[], [], rfl, nofun, nofun⟩, nofun, nofun⟩
  | cons c s ih =>
    by_cases hc : isBlank c
    · rw [trim_cons_of_isBlank hc]
      obtain ⟨⟨before, after, hs, hbefore, hafter⟩, hhead, hlast⟩ := ih
      refine ⟨⟨c :: before, after, ?_, List.forall_mem_cons.mpr ⟨hc, hbefore⟩, hafter⟩, hhead,
        hlast⟩
      rw [List.cons_append, List.cons_append, ← hs]
    · -- From here on blanks are taken off at the end only.
      rw [trim_cons_of_not_isBlank hc]
      obtain ⟨after, hs, hafter⟩ := exists_eq_trimEnd_append s
      refine ⟨⟨[], after, by rw [List.nil_append, List.cons_append, ← hs], nofun, hafter⟩, ?_, ?_⟩
      · rintro _ ⟨⟩
        exact hc
      · intro d hd
        cases hrest : trimEnd s with
        | nil =>
          rw [hrest] at hd
          cases hd
          exact hc
        | cons e rest =>
          rw [hrest, List.getLast?_cons_cons, ← hrest] at hd
          exact not_isBlank_of_mem_getLast?_trimEnd hd

/-- Trimming leaves the one text that is left without the blanks around. -/
theorem trim_eq_iff {s t : List Char} : trim s = t ↔ Trims s t := by
  constructor
  · rintro rfl
    exact trims_trim s
  · rintro ⟨⟨before, after, rfl, hbefore, hafter⟩, hhead, hlast⟩
    rw [trim_append_blanks hbefore hafter, trim_eq_self hhead hlast]

end CallLayout.Text

import CallLayout.Proofs.Text.Blank
import CallLayout.Text.Line
import Mathlib.Data.List.Forall2
import Mathlib.Data.List.Induction
import Mathlib.Data.Nat.Notation

/-!
# Lines, cuts and joined texts

A text that ends with a line feed can be followed by any other text without a change of its lines
(`lines_append`). A line feed behind a text adds an empty line if the text has one at its end
already (`lines_append`), and otherwise ends the last line, where it may take a carriage return
away (`forall₂_endsAlike_lines`). So may a carriage return that is put before a line feed
(`forall₂_endsAlike_lines_withReturns`). Trimmed lines do not show that (`EndsAlike.trim_eq`).

A text is cut at a separator in one way only (`cut?_eq_some_iff`, `append_inj_of_head?`), and texts
joined by a character that none of them holds can be told apart again (`join_inj`). Which
characters a text does not hold is read off the marks that it is written with (`WrittenWith`).
-/

namespace CallLayout.Text

/-! ## Lines -/

section Lines

variable {c : Char} {s : List Char}

/-- The text is empty or ends with a line feed, so that what follows it starts a line. -/
def IsTerminated (s : List Char) : Prop :=
  s = [] ∨ s.getLast? = some '\n'

theorem isTerminated_cons_iff (h : s ≠ [] ∨ c = '\n') :
    IsTerminated (c :: s) ↔ IsTerminated s := by
  cases s with
  | nil => simpa [IsTerminated] using h
  | cons d s => simp [IsTerminated]

theorem lines_cons (hfeed : c ≠ '\n') (hreturn : c = '\r' → s.head? ≠ some '\n') :
    lines (c :: s) = consFirst c (lines s) := by
  rw [lines]
  · exact hfeed
  · rintro rest hc rfl
    exact hreturn hc rfl

theorem consFirst_append {lines : List (List Char)} (h : lines ≠ []) (rest : List (List Char)) :
    consFirst c (lines ++ rest) = consFirst c lines ++ rest := by
  cases lines with
  | nil => exact absurd rfl h
  | cons line lines => rfl

theorem lines_ne_nil (h : s ≠ []) : lines s ≠ [] := by
  fun_cases lines s with
  | case1 => exact absurd rfl h
  | case2 | case3 => simp
  | case4 c rest => cases lines rest <;> simp [consFirst]

/-- A text without a line feed is one line. -/
theorem lines_of_newline_notMem (hne : s ≠ []) (h : '\n' ∉ s) : lines s = [s] := by
  induction s with
  | nil => exact absurd rfl hne
  | cons c s ih =>
    simp only [List.mem_cons, not_or] at h
    have hhead : s.head? ≠ some '\n' := fun hs => h.2 (List.mem_of_head? hs)
    rw [lines_cons (Ne.symm h.1) fun _ => hhead]
    by_cases hs : s = []
    · subst hs
      rfl
    · rw [ih hs h.2]
      rfl

/-- A line feed ends the lines before it, whatever comes behind it. -/
theorem lines_append_newline (s rest : List Char) :
    lines (s ++ '\n' :: rest) = lines (s ++ ['\n']) ++ lines rest := by
  fun_induction lines s with
  | case1 => rfl
  | case2 s ih | case3 s ih => simp [lines, ih]
  | case4 c s hfeed hreturn ih =>
    by_cases hend : c = '\r' ∧ s = []
    · -- A carriage return at the end of the text belongs to the line feed behind it.
      obtain ⟨rfl, rfl⟩ := hend
      rfl
    have hhead : ∀ t, c = '\r' → (s ++ '\n' :: t).head? ≠ some '\n' := by
      intro t hc
      cases s with
      | nil => exact absurd ⟨hc, rfl⟩ hend
      | cons d s => simpa using fun hd => hreturn s hc (congrArg (· :: s) hd)
    rw [List.cons_append, List.cons_append, lines_cons hfeed (hhead rest), ih,
      lines_cons hfeed (hhead []), consFirst_append (lines_ne_nil (by simp))]

/-- The lines of a text that starts a line anew come behind those before it. -/
theorem lines_append (h : IsTerminated s) (rest : List Char) :
    lines (s ++ rest) = lines s ++ lines rest := by
  rcases h with rfl | hlast
  · rfl
  · obtain ⟨s, rfl⟩ := List.getLast?_eq_some_iff.mp hlast
    rw [List.append_assoc]
    exact lines_append_newline s rest

end Lines

/-- The first line is the second one, perhaps with a carriage return behind it. -/
def EndsAlike (line line' : List Char) : Prop :=
  line = line' ∨ line = line' ++ ['\r']

theorem EndsAlike.cons {line line' : List Char} (h : EndsAlike line line') (c : Char) :
    EndsAlike (c :: line) (c :: line') := by
  rcases h with rfl | rfl
  · exact .inl rfl
  · exact .inr rfl

theorem forall₂_consFirst {lines lines' : List (List Char)}
    (h : List.Forall₂ EndsAlike lines lines') (c : Char) :
    List.Forall₂ EndsAlike (consFirst c lines) (consFirst c lines') := by
  cases h with
  | nil => exact .cons (.inl rfl) .nil
  | cons hline hlines => exact .cons (hline.cons c) hlines

/-- A line feed behind an unfinished line ends it. -/
theorem forall₂_endsAlike_lines {s : List Char} (h : ¬ IsTerminated s) :
    List.Forall₂ EndsAlike (lines s) (lines (s ++ ['\n'])) := by
  fun_induction lines s with
  | case1 => exact absurd (.inl rfl) h
  | case2 s ih =>
    rw [isTerminated_cons_iff (.inr rfl)] at h
    exact .cons (.inl rfl) (ih h)
  | case3 s ih =>
    rw [isTerminated_cons_iff (.inl (by simp)), isTerminated_cons_iff (.inr rfl)] at h
    exact .cons (.inl rfl) (ih h)
  | case4 c s hfeed hreturn ih =>
    cases s with
    | nil =>
      by_cases hc : c = '\r'
      · subst hc
        exact .cons (.inr rfl) .nil
      · rw [List.cons_append, lines_cons hfeed fun h => absurd h hc]
        exact .cons (.inl rfl) .nil
    | cons d s =>
      rw [isTerminated_cons_iff (.inl (by simp))] at h
      have hd : c = '\r' → (d :: s ++ ['\n']).head? ≠ some '\n' := by
        intro hc
        simpa using fun hd => hreturn s hc (congrArg (· :: s) hd)
      rw [List.cons_append, lines_cons hfeed hd]
      exact forall₂_consFirst (ih h) c

/-- What stands before the first line feed of a text is its first line. -/
theorem exists_lines_append_newline {s : List Char} (h : '\n' ∉ s) (rest : List Char) :
    ∃ line, EndsAlike s line ∧ lines (s ++ '\n' :: rest) = line :: lines rest := by
  by_cases hne : s = []
  · subst hne
    exact ⟨[], .inl rfl, rfl⟩
  have hopen : ¬ IsTerminated s := by
    rintro (hnil | hlast)
    · exact hne hnil
    · exact h (List.mem_of_getLast? hlast)
  have hends := forall₂_endsAlike_lines hopen
  rw [lines_of_newline_notMem hne h] at hends
  obtain ⟨line, lines', hline, hnil, hlines⟩ := List.forall₂_cons_left_iff.mp hends
  obtain rfl : lines' = [] := List.forall₂_nil_left_iff.mp hnil
  exact ⟨line, hline, by rw [lines_append_newline, hlines, List.singleton_append]⟩

/-- The text with a carriage return before every line feed. -/
def withReturns (s : List Char) : List Char :=
  s.flatMap fun c => if c = '\n' then ['\r', '\n'] else [c]

theorem withReturns_cons (c : Char) (s : List Char) :
    withReturns (c :: s) = (if c = '\n' then ['\r', '\n'] else [c]) ++ withReturns s :=
  List.flatMap_cons

/-- A text with carriage returns before its line feeds does not begin with a line feed. -/
theorem head?_withReturns_ne (s : List Char) : (withReturns s).head? ≠ some '\n' := by
  cases s with
  | nil => simp [withReturns]
  | cons c s =>
    rw [withReturns_cons]
    split
    · simp
    next hfeed => simpa using hfeed

/-- A carriage return before a line feed stays in the line only if another one follows it. -/
theorem forall₂_endsAlike_lines_withReturns (s : List Char) :
    List.Forall₂ EndsAlike (lines (withReturns s)) (lines s) := by
  fun_induction lines s with
  | case1 => exact .nil
  | case2 s ih => exact .cons (.inl rfl) ih
  | case3 s ih =>
    -- The first of two carriage returns is left in the line.
    have hreturn : lines (withReturns ('\r' :: '\n' :: s)) = ['\r'] :: lines (withReturns s) := rfl
    rw [hreturn]
    exact .cons (.inr rfl) ih
  | case4 c s hfeed hreturn ih =>
    rw [withReturns_cons, if_neg hfeed, List.singleton_append,
      lines_cons hfeed fun _ => head?_withReturns_ne s]
    exact forall₂_consFirst ih c

theorem EndsAlike.trim_eq {line line' : List Char} (h : EndsAlike line line') :
    trim line = trim line' := by
  rcases h with rfl | rfl
  · rfl
  · exact trim_concat (by decide) line'

/-! ## Cuts -/

/-- The text is cut in two at its first separator. -/
structure CutsAt (separator : Char) (s before after : List Char) : Prop where
  eq : s = before ++ separator :: after
  notMem : separator ∉ before

section Cut

variable {separator : Char} {s before after : List Char}

theorem cut?_append (h : separator ∉ before) (after : List Char) :
    cut? separator (before ++ separator :: after) = some (before, after) := by
  induction before with
  | nil => simp [cut?]
  | cons c before ih =>
    rw [List.mem_cons, not_or] at h
    rw [List.cons_append, cut?, if_neg (Ne.symm h.1), ih h.2]
    rfl

theorem cutsAt_of_cut? (h : cut? separator s = some (before, after)) :
    CutsAt separator s before after := by
  induction s generalizing before with
  | nil => cases h
  | cons c s ih =>
    rw [cut?] at h
    split at h
    next hc =>
      -- The text begins with the separator, so nothing stands before it.
      subst hc
      cases h
      exact ⟨rfl, List.not_mem_nil⟩
    next hc =>
      obtain ⟨parts, hcut, hparts⟩ := Option.map_eq_some_iff.mp h
      cases hparts
      obtain ⟨rfl, hnotMem⟩ := ih hcut
      exact ⟨rfl, by simp [hnotMem, Ne.symm hc]⟩

theorem cut?_eq_some_iff :
    cut? separator s = some (before, after) ↔ CutsAt separator s before after := by
  refine ⟨cutsAt_of_cut?, ?_⟩
  rintro ⟨rfl, hnotMem⟩
  exact cut?_append hnotMem after

theorem cut?_eq_none_iff : cut? separator s = none ↔ separator ∉ s := by
  induction s with
  | nil => simp [cut?]
  | cons c s ih =>
    rw [cut?, List.mem_cons, not_or, ← ih]
    split
    next hc => simp [hc]
    next hc => simp [Ne.symm hc]

/-- Texts that are equal are cut alike at a character that stands in neither beginning. -/
theorem append_inj_of_head? {a a' b b' : String} (ha : separator ∉ a.toList)
    (ha' : separator ∉ a'.toList) (hb : b.toList.head? = some separator)
    (hb' : b'.toList.head? = some separator) (h : a ++ b = a' ++ b') : a = a' ∧ b = b' := by
  obtain ⟨rest, hrest⟩ := List.head?_eq_some_iff.mp hb
  obtain ⟨rest', hrest'⟩ := List.head?_eq_some_iff.mp hb'
  have hcut := cut?_append ha rest
  rw [← hrest, ← String.toList_append, h, String.toList_append, hrest', cut?_append ha' rest']
    at hcut
  simp only [Option.some.injEq, Prod.mk.injEq, String.toList_inj] at hcut
  obtain ⟨rfl, rfl⟩ := hcut
  exact ⟨rfl, String.toList_inj.mp (hrest.trans hrest'.symm)⟩

end Cut

/-! ## Joined texts -/

theorem join_eq_intercalate (separator : String) (texts : List String) :
    join separator texts = separator.intercalate texts := by
  fun_induction join separator texts with
  | case1 => rw [String.intercalate_nil]
  | case2 s => rw [String.intercalate_singleton]
  | case3 s next rest ih => rw [String.intercalate_cons_cons, ih]

section Join

variable {c : Char} {separator : String} {texts texts' : List String}

/-- Texts without the character that joins them can be read back from the joined text. -/
theorem splitOn_join (hsep : separator.toList = [c]) (hne : texts ≠ [])
    (h : ∀ s ∈ texts, c ∉ s.toList) :
    (join separator texts).toList.splitOn c = texts.map String.toList := by
  rw [join_eq_intercalate, String.toList_intercalate, hsep]
  refine List.splitOn_intercalate c ?_ (by simpa using hne)
  simpa using h

/-- Joined texts are equal only if the texts are. -/
theorem join_inj (hsep : separator.toList = [c]) (hne : texts ≠ []) (hne' : texts' ≠ [])
    (h : ∀ s ∈ texts, c ∉ s.toList) (h' : ∀ s ∈ texts', c ∉ s.toList)
    (heq : join separator texts = join separator texts') : texts = texts' := by
  have hmap : texts.map String.toList = texts'.map String.toList := by
    rw [← splitOn_join hsep hne h, heq, splitOn_join hsep hne' h']
  exact (List.map_injective_iff.mpr fun _ _ => String.toList_inj.mp) hmap

/-- The lines of texts joined by line feeds are these texts, except that a carriage return at the
end of one belongs to the line feed behind it. -/
theorem forall₂_endsAlike_lines_join (h : ∀ s ∈ texts, s.toList ≠ [] ∧ '\n' ∉ s.toList) :
    List.Forall₂ EndsAlike (texts.map String.toList) (lines (join "\n" texts).toList) := by
  fun_induction join "\n" texts with
  | case1 => exact .nil
  | case2 s =>
    obtain ⟨hne, hnewline⟩ := h s (by simp)
    rw [lines_of_newline_notMem hne hnewline]
    exact .cons (.inl rfl) .nil
  | case3 s next rest ih =>
    rw [List.forall_mem_cons] at h
    obtain ⟨⟨hne, hnewline⟩, hrest⟩ := h
    -- The first text is a line that the line feed behind it ends.
    have hjoin : (s ++ "\n" ++ join "\n" (next :: rest)).toList =
        s.toList ++ '\n' :: (join "\n" (next :: rest)).toList := by simp
    obtain ⟨line, hline, hlines⟩ := exists_lines_append_newline hnewline
      (join "\n" (next :: rest)).toList
    rw [hjoin, hlines]
    exact .cons hline (ih hrest)

end Join

/-! ## The characters of a text -/

section Characters

variable {marks marks' s t : String}

/-- The text is written with letters, digits and the given marks. -/
def WrittenWith (marks s : String) : Prop :=
  ∀ c ∈ s.toList, c.isAlphanum ∨ c ∈ marks.toList

instance : Decidable (WrittenWith marks s) :=
  List.decidableBAll _ s.toList

theorem WrittenWith.notMem {c : Char} (h : WrittenWith marks s) (halphanum : ¬ c.isAlphanum)
    (hmark : c ∉ marks.toList) : c ∉ s.toList := by
  intro hmem
  rcases h c hmem with hc | hc
  · exact halphanum hc
  · exact hmark hc

theorem WrittenWith.mono (h : WrittenWith marks s) (hsub : marks.toList ⊆ marks'.toList) :
    WrittenWith marks' s :=
  fun c hc => (h c hc).imp_right fun hmark => hsub hmark

@[simp]
theorem writtenWith_empty : WrittenWith marks "" := by
  simp [WrittenWith]

@[simp]
theorem writtenWith_append :
    WrittenWith marks (s ++ t) ↔ WrittenWith marks s ∧ WrittenWith marks t := by
  simp [WrittenWith, or_imp, forall_and]

theorem WrittenWith.padEnd (h : WrittenWith marks s) (hspace : ' ' ∈ marks.toList) (width : ℕ) :
    WrittenWith marks (padEnd width s) := by
  refine writtenWith_append.mpr ⟨h, fun c hc => .inr ?_⟩
  rw [String.toList_ofList] at hc
  exact List.eq_of_mem_replicate hc ▸ hspace

/-- A joined text is written with what its parts and the separator are. -/
theorem WrittenWith.join {separator : String} {texts : List String}
    (hsep : WrittenWith marks separator) (h : ∀ s ∈ texts, WrittenWith marks s) :
    WrittenWith marks (join separator texts) := by
  fun_induction Text.join separator texts with
  | case1 => exact writtenWith_empty
  | case2 s => exact h s (by simp)
  | case3 s next rest ih =>
    simp only [writtenWith_append]
    exact ⟨⟨h s (by simp), hsep⟩, ih fun t ht => h t (List.mem_cons_of_mem s ht)⟩

end Characters

end CallLayout.Text

import CallLayout.Proofs.TypeName.Separator

/-!
# Shortening between delimiters

A character that is neither part of a word nor a colon is a delimiter: it ends the word before it,
begins no separator and is written itself. So a name can be shortened in parts on both sides of a
delimiter (`shortenAfter_append_cons`), whatever the parts are, and no other character has this
property (`short_append_singleton_append_iff`). For the marks around the parts of a type this says
that they are written as they are (`short_opening_append`, `short_append_closing`,
`short_append_mark_append`).
-/

namespace CallLayout.TypeName

/-- The character is neither part of a word nor a colon. -/
def IsDelimiter (c : Char) : Prop :=
  ¬ isWordChar c ∧ c ≠ ':'

instance : DecidablePred IsDelimiter :=
  fun _ => inferInstanceAs (Decidable (_ ∧ _))

section

variable {c : Char} {word s rest : List Char}

/-! ## One step -/

/-- A character of a word is held back with the word. -/
theorem shortenAfter_cons_of_isWordChar (hc : isWordChar c) (word rest : List Char) :
    shortenAfter word (c :: rest) = shortenAfter (word ++ [c]) rest := by
  have hcolon : c ≠ ':' := by
    rintro rfl
    exact not_isWordChar_colon hc
  rw [shortenAfter, if_pos hc]
  exact fun _ h => absurd h hcolon

/-- Any other character that does not begin a separator is written behind the word. -/
theorem shortenAfter_cons_of_not_isWordChar (hc : ¬ isWordChar c)
    (hcolon : ∀ rest', c = ':' → rest = ':' :: rest' → False) (word : List Char) :
    shortenAfter word (c :: rest) = word ++ c :: shorten rest := by
  rw [shortenAfter, if_neg hc, shorten]
  exact hcolon

theorem shortenAfter_cons_of_isDelimiter (hc : IsDelimiter c) (word rest : List Char) :
    shortenAfter word (c :: rest) = word ++ c :: shorten rest :=
  shortenAfter_cons_of_not_isWordChar hc.1 (fun _ h => absurd h hc.2) word

/-! ## Both sides of a delimiter -/

/-- What stands on the two sides of a delimiter is shortened apart. -/
theorem shortenAfter_append_cons (hc : IsDelimiter c) (word s rest : List Char) :
    shortenAfter word (s ++ c :: rest) = shortenAfter word s ++ c :: shorten rest := by
  fun_induction shortenAfter word s with
  | case1 word => exact shortenAfter_cons_of_isDelimiter hc word rest
  | case2 word s ih => simpa [shortenAfter] using ih
  | case3 word d s hcolon hd ih =>
    rw [List.cons_append, shortenAfter_cons_of_isWordChar hd, ih]
  | case4 word d s hcolon hd ih =>
    have hnone : ∀ rest', d = ':' → s ++ c :: rest = ':' :: rest' → False := by
      intro rest' hcolon' hs
      -- The delimiter is no colon, so a second colon would stand before it.
      cases s with
      | nil => exact hc.2 (List.cons.inj hs).1
      | cons e s => exact hcolon s hcolon' (by rw [(List.cons.inj hs).1])
    rw [List.cons_append, shortenAfter_cons_of_not_isWordChar hd hnone, shorten, ih]
    simp

theorem shorten_append_cons (hc : IsDelimiter c) (s rest : List Char) :
    shorten (s ++ c :: rest) = shorten s ++ c :: shorten rest :=
  shortenAfter_append_cons hc [] s rest

end

/-! ## Where names can be cut -/

theorem isDelimiter_iff {c : Char} :
    IsDelimiter c ↔ ¬ Text.isAlphanumeric c ∧ c ≠ '_' ∧ c ≠ ':' := by
  simp [IsDelimiter, isWordChar, and_assoc]

/-- A name is shortened apart on both sides of a character, whatever stands there, exactly if the
character is a delimiter. Any other one is either a colon, and may be half a separator, or belongs
to a word, which a separator behind it would drop. -/
theorem short_append_singleton_append_iff {c : Char} :
    (∀ s t : String,
        short (s ++ String.singleton c ++ t) = short s ++ String.singleton c ++ short t) ↔
      ¬ Text.isAlphanumeric c ∧ c ≠ '_' ∧ c ≠ ':' := by
  rw [← isDelimiter_iff]
  constructor
  · intro hcut
    constructor
    · -- The separator drops the character of a word before it, unless it is cut off.
      intro hword
      have hdrop := congrArg String.toList (hcut "" "::")
      simp [toList_short, shorten, shortenAfter_cons_of_isWordChar hword, shortenAfter] at hdrop
    · -- Two colons are a separator together, and stay if they are cut apart.
      rintro rfl
      have hhalf := congrArg String.toList (hcut "" ":")
      simp [toList_short, shorten, shortenAfter] at hhalf
  · intro hc s t
    rw [← String.toList_inj]
    simp [toList_short, shorten_append_cons hc]

/-! ## Marks -/

/-- The text begins with a delimiter and has no colon, so that what stands before it is apart. -/
def IsClosing (mark : String) : Prop :=
  ':' ∉ mark.toList ∧ mark.toList.head?.any (IsDelimiter ·)

/-- The text ends with a delimiter and has no colon, so that what stands behind it is apart. -/
def IsOpening (mark : String) : Prop :=
  ':' ∉ mark.toList ∧ mark.toList.getLast?.any (IsDelimiter ·)

instance : DecidablePred IsClosing :=
  fun _ => inferInstanceAs (Decidable (_ ∧ _))

instance : DecidablePred IsOpening :=
  fun _ => inferInstanceAs (Decidable (_ ∧ _))

section

variable {mark : String}

/-- Before a delimiter a name can be cut in two. -/
theorem short_append (s : String) {t : String} (h : t.toList.head?.any (IsDelimiter ·)) :
    short (s ++ t) = short s ++ short t := by
  obtain ⟨c, hhead, hc⟩ := (Option.any_eq_true _ _).mp h
  obtain ⟨rest, hrest⟩ := List.head?_eq_some_iff.mp hhead
  rw [decide_eq_true_iff] at hc
  have ht : shorten t.toList = c :: shorten rest := by
    rw [hrest]
    exact shorten_append_cons hc [] rest
  rw [← String.toList_inj, String.toList_append, toList_short, toList_short, toList_short, ht,
    String.toList_append, hrest, shorten_append_cons hc]

theorem short_append_closing (s : String) (h : IsClosing mark) :
    short (s ++ mark) = short s ++ mark := by
  rw [short_append s h.2, short_of_colon_notMem h.1]

theorem short_opening_append (h : IsOpening mark) (t : String) :
    short (mark ++ t) = mark ++ short t := by
  obtain ⟨hcolon, hmark⟩ := h
  obtain ⟨c, hlast, hc⟩ := (Option.any_eq_true _ _).mp hmark
  obtain ⟨lead, hlead⟩ := List.getLast?_eq_some_iff.mp hlast
  rw [decide_eq_true_iff] at hc
  have hstays : shorten lead = lead := by
    apply shortenAfter_of_not_hasSeparator
    intro hseparator
    rw [hlead, List.mem_append, not_or] at hcolon
    exact hcolon.1 (hseparator.subset (by simp))
  rw [← String.toList_inj, toList_short, String.toList_append, String.toList_append, toList_short,
    hlead, List.append_assoc, List.singleton_append, shorten_append_cons hc, hstays]
  simp

/-- Between two marks a name is shortened as it is alone. -/
theorem short_enclosed {opening closing : String} (hopening : IsOpening opening)
    (hclosing : IsClosing closing) (s : String) :
    short (opening ++ s ++ closing) = opening ++ short s ++ closing := by
  rw [short_append_closing _ hclosing, short_opening_append hopening]

theorem short_append_mark_append (hclosing : IsClosing mark) (hopening : IsOpening mark)
    (s t : String) : short (s ++ mark ++ t) = short s ++ mark ++ short t := by
  have hbegins : (mark ++ t).toList.head?.any (IsDelimiter ·) := by
    obtain ⟨c, hhead, hc⟩ := (Option.any_eq_true _ _).mp hclosing.2
    simp [hhead, hc]
  rw [String.append_assoc, short_append s hbegins, short_opening_append hopening,
    String.append_assoc]

end

end CallLayout.TypeName

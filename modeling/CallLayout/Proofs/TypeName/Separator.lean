import CallLayout.TypeName
import Mathlib.Data.List.Basic

/-!
# Shortened names have no path separator

Shortening reads a name once and holds back a word until it is clear what follows it: a separator
drops the word, anything else writes it. All laws here are inductions along this reading, with any
word held back at the start:

* shortening only leaves out (`shortenAfter_sublist`);
* a name stays as it is exactly if it has no separator (`shortenAfter_eq_append_iff`);
* a shortened name has no separator if no three colons stood side by side in the name
  (`not_hasSeparator_shortenAfter`).

The restriction of the last law is needed: two colons that were apart in the name are written side
by side if all that stood between them is dropped, and what is dropped ends with two colons itself.
-/

namespace CallLayout.TypeName

/-- Two colons stand side by side in the text. -/
def HasSeparator (s : List Char) : Prop :=
  "::".toList <:+: s

/-- Three colons stand side by side in the text. -/
def HasTripleColon (s : List Char) : Prop :=
  ":::".toList <:+: s

instance : DecidablePred HasSeparator :=
  fun s => inferInstanceAs (Decidable ("::".toList <:+: s))

instance : DecidablePred HasTripleColon :=
  fun s => inferInstanceAs (Decidable (":::".toList <:+: s))

section

variable {c : Char} {word s rest : List Char}

theorem not_isWordChar_colon : ¬ isWordChar ':' := by
  decide +kernel

theorem colon_notMem_concat (hword : ':' ∉ word) (hc : isWordChar c) : ':' ∉ word ++ [c] := by
  rw [List.mem_append, List.mem_singleton, not_or]
  refine ⟨hword, ?_⟩
  rintro rfl
  exact not_isWordChar_colon hc

/-- In a text that does not begin with a separator, separators stand behind the first character. -/
theorem HasSeparator.of_cons (hcolon : ∀ rest', c = ':' → rest = ':' :: rest' → False)
    (h : HasSeparator (c :: rest)) : HasSeparator rest := by
  rcases List.infix_cons_iff.mp h with ⟨rest', hprefix⟩ | hinfix
  · cases hprefix
    exact (hcolon rest' rfl rfl).elim
  · exact hinfix

/-- A separator does not begin in a text without a colon. -/
theorem HasSeparator.of_append (hword : ':' ∉ word) (h : HasSeparator (word ++ s)) :
    HasSeparator s := by
  induction word with
  | nil => exact h
  | cons c word ih =>
    rw [List.mem_cons, not_or] at hword
    exact ih hword.2 (h.of_cons fun _ hc => absurd hc.symm hword.1)

/-! ## What is left out -/

/-- Shortening only leaves out. -/
theorem shortenAfter_sublist (word s : List Char) : (shortenAfter word s).Sublist (word ++ s) := by
  fun_induction shortenAfter word s with
  | case1 word => simp
  | case2 word rest ih =>
    have hrest : rest.Sublist (word ++ ':' :: ':' :: rest) :=
      ((List.sublist_cons_self _ _).trans (List.sublist_cons_self _ _)).trans
        (List.sublist_append_right _ _)
    exact ih.trans hrest
  | case3 word c rest hcolon hword ih => simpa using ih
  | case4 word c rest hcolon hmark ih => simpa using ih

/-- Without a separator nothing is left out. -/
theorem shortenAfter_of_not_hasSeparator (word : List Char) (h : ¬ HasSeparator s) :
    shortenAfter word s = word ++ s := by
  fun_induction shortenAfter word s with
  | case1 word => simp
  | case2 word rest => exact absurd (List.prefix_append _ rest).isInfix h
  | case3 word c rest hcolon hword ih => simp [ih fun hrest => h (List.infix_cons hrest)]
  | case4 word c rest hcolon hmark ih => simp [ih fun hrest => h (List.infix_cons hrest)]

/-- With a separator, that is left out at least. -/
theorem length_shortenAfter_lt (word : List Char) (h : HasSeparator s) :
    (shortenAfter word s).length < (word ++ s).length := by
  fun_induction shortenAfter word s with
  | case1 word => simp [HasSeparator] at h
  | case2 word rest =>
    have hle := (shortenAfter_sublist [] rest).length_le
    simp only [List.length_append, List.length_cons, List.nil_append] at hle ⊢
    omega
  | case3 word c rest hcolon hword ih => simpa using ih (h.of_cons hcolon)
  | case4 word c rest hcolon hmark ih => simpa using ih (h.of_cons hcolon)

/-- A name stays as it is exactly if it has no separator. -/
theorem shortenAfter_eq_append_iff :
    shortenAfter word s = word ++ s ↔ ¬ HasSeparator s := by
  refine ⟨fun heq h => ?_, shortenAfter_of_not_hasSeparator word⟩
  exact (Nat.ne_of_lt (length_shortenAfter_lt word h)) (congrArg List.length heq)

/-! ## What is written -/

/-- What is written begins with a colon only if that is the next character read. -/
theorem head?_shortenAfter_ne (hword : ':' ∉ word) (htriple : ¬ HasTripleColon s)
    (hhead : word ≠ [] ∨ s.head? ≠ some ':') : (shortenAfter word s).head? ≠ some ':' := by
  fun_induction shortenAfter word s with
  | case1 word => exact fun h => hword (List.mem_of_head? h)
  | case2 word rest ih =>
    -- A third colon behind the separator is what the name does not have.
    refine ih List.not_mem_nil (fun h => htriple (List.infix_cons (List.infix_cons h))) (.inr ?_)
    intro h
    obtain ⟨rest', rfl⟩ := List.head?_eq_some_iff.mp h
    exact htriple (List.prefix_append _ rest').isInfix
  | case3 word c rest hcolon hc ih =>
    exact ih (colon_notMem_concat hword hc) (fun h => htriple (List.infix_cons h)) (.inl (by simp))
  | case4 word c rest hcolon hmark ih =>
    cases word with
    | nil => simpa using hhead
    | cons d word => simpa using fun hd => hword (by simp [hd])

/-- What is written has no separator. -/
theorem not_hasSeparator_shortenAfter (hword : ':' ∉ word) (htriple : ¬ HasTripleColon s) :
    ¬ HasSeparator (shortenAfter word s) := by
  fun_induction shortenAfter word s with
  | case1 word =>
    intro h
    have hnil : HasSeparator [] := .of_append hword (by simpa using h)
    simp [HasSeparator] at hnil
  | case2 word rest ih =>
    exact ih List.not_mem_nil fun h => htriple (List.infix_cons (List.infix_cons h))
  | case3 word c rest hcolon hc ih =>
    exact ih (colon_notMem_concat hword hc) fun h => htriple (List.infix_cons h)
  | case4 word c rest hcolon hmark ih =>
    have hrest : ¬ HasTripleColon rest := fun h => htriple (List.infix_cons h)
    intro h
    refine ih List.not_mem_nil hrest ((h.of_append hword).of_cons ?_)
    -- A colon alone is written, so the next character is none, nor is what is written next.
    rintro rest' rfl hnext
    refine head?_shortenAfter_ne List.not_mem_nil hrest (.inr fun hhead => ?_) (by rw [hnext]; rfl)
    obtain ⟨rest', rfl⟩ := List.head?_eq_some_iff.mp hhead
    exact hcolon rest' rfl rfl

/-! ## Names -/

theorem toList_short (name : String) : (short name).toList = shorten name.toList :=
  String.toList_ofList

theorem short_eq_self_iff {name : String} : short name = name ↔ ¬ HasSeparator name.toList := by
  rw [← String.toList_inj, toList_short]
  exact shortenAfter_eq_append_iff

/-- A name without a colon is shortened to itself. -/
theorem short_of_colon_notMem {name : String} (h : ':' ∉ name.toList) : short name = name :=
  short_eq_self_iff.mpr fun hseparator => h (hseparator.subset (by simp))

end

/-- Shortening a name in which no three colons stand side by side leaves no path separator in it,
and only leaves out. Shortening it once more changes nothing, and shortening a name changes nothing
exactly if there is no separator in it. -/
theorem short_idempotent {name : String} (h : ¬ HasTripleColon name.toList) :
    ¬ HasSeparator (short name).toList ∧
      (short name).toList.Sublist name.toList ∧
      short (short name) = short name ∧
      (short name = name ↔ ¬ HasSeparator name.toList) := by
  have hnone : ¬ HasSeparator (short name).toList := by
    rw [toList_short]
    exact not_hasSeparator_shortenAfter List.not_mem_nil h
  refine ⟨hnone, ?_, short_eq_self_iff.mpr hnone, short_eq_self_iff⟩
  rw [toList_short]
  exact shortenAfter_sublist [] name.toList

/-- A colon that stands alone is written, and none comes to stand beside it when a word and its
separator are dropped. -/
theorem short_idempotent_colons_apart :
    ¬ HasTripleColon "a:std::b:c::".toList ∧ (short "a:std::b:c::").toList = "a:b:".toList ∧
      ¬ HasSeparator (short "a:std::b:c::").toList ∧
      short (short "a:std::b:c::") = short "a:std::b:c::" ∧
      short "a:std::b:c::" ≠ "a:std::b:c::" := by
  have hdomain : ¬ HasTripleColon "a:std::b:c::".toList := by decide +kernel
  obtain ⟨hnone, -, hagain, hstays⟩ := short_idempotent hdomain
  refine ⟨hdomain, ?_, hnone, hagain, ?_⟩
  · rw [toList_short]
    decide +kernel
  · rw [ne_eq, hstays]
    decide +kernel

/-- Of three colons side by side one may be left, and come to stand beside another. -/
example : shorten ":a:::".toList = "::".toList := by decide +kernel

end CallLayout.TypeName

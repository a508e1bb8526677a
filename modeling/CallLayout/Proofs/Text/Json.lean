import CallLayout.Proofs.Text.Decimal
import CallLayout.Text.Json
import Mathlib.Data.List.TakeWhile
import Mathlib.Logic.Function.Defs

/-!
# JSON texts

The indented text of a JSON value tells the value (`pretty_injective`). The reason is that the text
of every value, at any level, ends where it ends whatever follows it: a number goes on as long as
there are digits, a quoted text up to its closing quote, and of a list or an object the line behind
each item tells whether there is one more. What follows a value is never a digit.

The module introduces:

* `IsDelimited`: the written form of a value can be told apart from what follows it;
* `unescape?`: the character that the beginning of a quoted text stands for;
* `tail`: what follows an item up to the closing bracket.

Quoted texts and numbers are delimited, and a bracket is if its items are
(`bracket_append_inj`); the rest is an induction over the value.
-/

namespace CallLayout.Json

/-! ## Delimited texts -/

/-- The text does not begin with a digit. -/
def NoDigit (s : List Char) : Prop :=
  ∀ c ∈ s.head?, ¬ c.isDigit

/-- What `f` writes for `a` can be told apart from anything that follows it and is no digit. -/
def IsDelimited {α : Type} (f : α → String) (a : α) : Prop :=
  ∀ b rest rest', NoDigit rest → NoDigit rest' →
    (f a).toList ++ rest = (f b).toList ++ rest' → a = b ∧ rest = rest'

theorem noDigit_cons {c : Char} (h : ¬ c.isDigit) (s : List Char) : NoDigit (c :: s) := by
  rintro _ ⟨⟩
  exact h

/-- The digits of a number are all digits up to what follows. -/
theorem takeWhile_decimalDigits_append (n : ℕ) {rest : List Char} (h : NoDigit rest) :
    (Numeral.decimalDigits n ++ rest).takeWhile Char.isDigit = Numeral.decimalDigits n := by
  rw [List.takeWhile_append_of_pos fun c hc => Numeral.isDigit_of_mem_decimalDigits hc]
  cases rest with
  | nil => exact List.append_nil _
  | cons c rest => rw [List.takeWhile_cons_of_neg (h c rfl), List.append_nil]

theorem isDelimited_decimal (n : ℕ) : IsDelimited Numeral.decimal n := by
  intro m rest rest' hrest hrest' heq
  rw [Numeral.decimal, Numeral.decimal, String.toList_ofList, String.toList_ofList] at heq
  -- Both numbers go as far as there are digits.
  have hdigits := congrArg (List.takeWhile Char.isDigit) heq
  rw [takeWhile_decimalDigits_append n hrest, takeWhile_decimalDigits_append m hrest'] at hdigits
  obtain rfl := Numeral.decimalDigits_inj hdigits
  exact ⟨rfl, List.append_cancel_left heq⟩

/-! ## Quoted texts -/

/-- The character that a text behind a backslash begins with, and what follows. -/
def unescaped? : List Char → Option (Char × List Char)
  | 'u' :: '0' :: '0' :: high :: low :: rest => do
    let high ← Numeral.digitValue? high
    let low ← Numeral.digitValue? low
    some (Char.ofNat (16 * high + low), rest)
  | 'n' :: rest => some ('\n', rest)
  | 'r' :: rest => some ('\r', rest)
  | 't' :: rest => some ('\t', rest)
  | 'b' :: rest => some ('\x08', rest)
  | 'f' :: rest => some ('\x0c', rest)
  | c :: rest => some (c, rest)
  | [] => none

/-- The character that a text between quotes begins with, and what follows. -/
def unescape? : List Char → Option (Char × List Char)
  | '\\' :: rest => unescaped? rest
  | c :: rest => some (c, rest)
  | [] => none

theorem digitValue?_hexDigit {n : ℕ} (h : n < 16) : Numeral.digitValue? (hexDigit n) = some n := by
  have hvalue : ∀ n < 16, Numeral.digitValue? (hexDigit n) = some n := by decide
  exact hvalue n h

/-- Each character of a quoted text can be read back. -/
theorem unescape?_escape (c : Char) (rest : List Char) :
    unescape? (escape c ++ rest) = some (c, rest) := by
  fun_cases escape c with
  | case1 | case2 | case3 | case4 | case5 | case6 | case7 => rfl
  | case8 c _ _ _ _ _ _ _ hcontrol =>
    have hhigh := digitValue?_hexDigit (n := c.toNat / 16) (by omega)
    have hlow := digitValue?_hexDigit (Nat.mod_lt c.toNat (by decide : 0 < 16))
    change (do
      let high ← Numeral.digitValue? (hexDigit (c.toNat / 16))
      let low ← Numeral.digitValue? (hexDigit (c.toNat % 16))
      some (Char.ofNat (16 * high + low), rest)) = _
    rw [hhigh, hlow]
    change some (Char.ofNat (16 * (c.toNat / 16) + c.toNat % 16), rest) = _
    rw [Nat.div_add_mod, Char.ofNat_toNat]
  | case9 c _ hslash =>
    rw [List.singleton_append, unescape?]
    exact hslash

/-- No character between quotes looks like the closing quote. -/
theorem escape_append_ne_quote (c : Char) (s rest : List Char) : escape c ++ s ≠ '"' :: rest := by
  intro h
  have hread := unescape?_escape c s
  rw [h] at hread
  -- It would be the quote itself, which stands behind a backslash.
  cases hread
  cases h

/-- What stands between quotes ends at the closing quote. -/
theorem flatMap_escape_append_inj {s t rest rest' : List Char}
    (h : s.flatMap escape ++ '"' :: rest = t.flatMap escape ++ '"' :: rest') :
    s = t ∧ rest = rest' := by
  induction s generalizing t with
  | nil =>
    cases t with
    | nil => exact ⟨rfl, (List.cons.inj h).2⟩
    | cons d t =>
      rw [List.flatMap_cons, List.append_assoc] at h
      exact absurd h.symm (escape_append_ne_quote d _ _)
  | cons c s ih =>
    rw [List.flatMap_cons, List.append_assoc] at h
    cases t with
    | nil => exact absurd h (escape_append_ne_quote c _ _)
    | cons d t =>
      rw [List.flatMap_cons, List.append_assoc] at h
      -- Reading the first character back gives `c` as well as `d`.
      have hread := unescape?_escape c (s.flatMap escape ++ '"' :: rest)
      rw [h, unescape?_escape, Option.some.injEq, Prod.mk.injEq] at hread
      obtain ⟨rfl, hrest⟩ := hread
      obtain ⟨rfl, rfl⟩ := ih hrest.symm
      exact ⟨rfl, rfl⟩

theorem toList_quote_append (s : String) (rest : List Char) :
    (quote s).toList ++ rest = '"' :: (s.toList.flatMap escape ++ '"' :: rest) := by
  simp [quote]

/-- A quoted text ends at its closing quote, whatever follows. -/
theorem quote_append_inj {s t : String} {rest rest' : List Char}
    (h : (quote s).toList ++ rest = (quote t).toList ++ rest') : s = t ∧ rest = rest' := by
  rw [toList_quote_append, toList_quote_append, List.cons.injEq] at h
  obtain ⟨hchars, hrest⟩ := flatMap_escape_append_inj h.2
  exact ⟨String.toList_inj.mp hchars, hrest⟩

/-! ## Brackets -/

/-- What follows an item of a bracket at the given level, up to the closing mark. -/
def tail (level : ℕ) (closing : String) : List String → String
  | [] => "\n" ++ indent level ++ closing
  | item :: items => ",\n" ++ indent (level + 1) ++ item ++ tail level closing items

/-- A bracket with items: the first one, and what follows it. -/
theorem bracket_cons (level : ℕ) (opening closing item : String) (items : List String) :
    bracket level opening closing (item :: items) =
      opening ++ "\n" ++ indent (level + 1) ++ item ++ tail level closing items := by
  -- A separator is written in front of the item behind it here, not between two items.
  have hjoin : Text.join ",\n" ((item :: items).map (indent (level + 1) ++ ·)) ++
      "\n" ++ indent level ++ closing =
        indent (level + 1) ++ item ++ tail level closing items := by
    induction items generalizing item with
    | nil => simp [Text.join, tail, String.append_assoc]
    | cons next items ih =>
      have hnext := ih next
      simp only [List.map_cons, Text.join, tail, String.append_assoc] at hnext ⊢
      rw [hnext]
  rw [bracket, if_neg (by simp)]
  simp only [String.append_assoc] at hjoin ⊢
  rw [List.map_cons] at hjoin ⊢
  rw [hjoin]

theorem noDigit_tail (level : ℕ) (closing : String) (items : List String) (rest : List Char) :
    NoDigit ((tail level closing items).toList ++ rest) := by
  cases items with
  | nil | cons =>
    rw [tail]
    simpa using noDigit_cons (by decide) _

section Bracket

variable {α : Type} {f : α → String} {level : ℕ} {closing : String} {items items' : List α}
  {rest rest' : List Char}

/-- Behind an item the next line tells whether there is one more. -/
theorem tail_append_inj (hitems : ∀ a ∈ items, IsDelimited f a)
    (h : (tail level closing (items.map f)).toList ++ rest =
      (tail level closing (items'.map f)).toList ++ rest') : items = items' ∧ rest = rest' := by
  induction items generalizing items' with
  | nil =>
    cases items' with
    | nil => exact ⟨rfl, List.append_cancel_left h⟩
    | cons b items' => simp [tail] at h
  | cons a items ih =>
    cases items' with
    | nil => simp [tail] at h
    | cons b items' =>
      simp only [List.map_cons, tail, String.toList_append, List.append_assoc,
        List.append_cancel_left_eq] at h
      rw [List.forall_mem_cons] at hitems
      obtain ⟨rfl, hrest⟩ := hitems.1 b _ _ (noDigit_tail _ _ _ _) (noDigit_tail _ _ _ _) h
      obtain ⟨rfl, rfl⟩ := ih hitems.2 hrest
      exact ⟨rfl, rfl⟩

/-- A bracket ends at its closing mark if each of its items ends where it ends. -/
theorem bracket_append_inj {opening : String} {c : Char} (hclosing : closing.toList = [c])
    (hc : c ≠ '\n') (hitems : ∀ a ∈ items, IsDelimited f a)
    (h : (bracket level opening closing (items.map f)).toList ++ rest =
      (bracket level opening closing (items'.map f)).toList ++ rest') :
    items = items' ∧ rest = rest' := by
  cases items with
  | nil =>
    cases items' with
    | nil => exact ⟨rfl, List.append_cancel_left h⟩
    | cons b items' =>
      -- Behind the opening mark of an empty bracket there is no line end.
      rw [List.map_cons, bracket_cons] at h
      simp [bracket, hclosing, hc] at h
  | cons a items =>
    rw [List.map_cons, bracket_cons] at h
    cases items' with
    | nil => simp [bracket, hclosing, hc.symm] at h
    | cons b items' =>
      rw [List.map_cons, bracket_cons] at h
      simp only [String.toList_append, List.append_assoc, List.append_cancel_left_eq] at h
      rw [List.forall_mem_cons] at hitems
      obtain ⟨rfl, hrest⟩ := hitems.1 b _ _ (noDigit_tail _ _ _ _) (noDigit_tail _ _ _ _) h
      obtain ⟨rfl, rfl⟩ := tail_append_inj hitems.2 hrest
      exact ⟨rfl, rfl⟩

end Bracket

/-! ## Values -/

/-- A property of all values: it is one of a list if it is one of the list's items, and one of an
object if it is one of the values of the object's fields. -/
@[elab_as_elim]
theorem induction {motive : Json → Prop} (null : motive .null) (number : ∀ n, motive (.number n))
    (text : ∀ s, motive (.text s))
    (list : ∀ items, (∀ v ∈ items, motive v) → motive (.list items))
    (object : ∀ fields, (∀ field ∈ fields, motive field.2) → motive (.object fields)) (v : Json) :
    motive v :=
  -- The recursion goes through lists of items, lists of fields and single fields as well.
  @Json.rec motive (fun items => ∀ v ∈ items, motive v) (fun fields => ∀ f ∈ fields, motive f.2)
    (fun f => motive f.2) null number text list object nofun
    (fun _ _ h hs => List.forall_mem_cons.mpr ⟨h, hs⟩) nofun
    (fun _ _ h hs => List.forall_mem_cons.mpr ⟨h, hs⟩) (fun _ _ h => h) v

/-- The text of a field whose line is already at the given level. -/
def fieldText (level : ℕ) (field : String × Json) : String :=
  quote field.1 ++ ": " ++ textAt level field.2

theorem textAt_list (level : ℕ) (items : List Json) :
    textAt level (.list items) = bracket level "[" "]" (items.map (textAt (level + 1))) := by
  have hitems : itemTexts (level + 1) items = items.map (textAt (level + 1)) := by
    induction items with
    | nil => rfl
    | cons item items ih => rw [itemTexts, ih, List.map_cons]
  rw [textAt, hitems]

theorem textAt_object (level : ℕ) (fields : List (String × Json)) :
    textAt level (.object fields) =
      bracket level "\x7b" "\x7d" (fields.map (fieldText (level + 1))) := by
  have hfields : fieldTexts (level + 1) fields = fields.map (fieldText (level + 1)) := by
    induction fields with
    | nil => rfl
    | cons field fields ih => rw [fieldTexts, ih, List.map_cons, fieldText]
  rw [textAt, hfields]

/-- Whether the value is nothing, a number, a text, a list or an object. -/
def kind : Json → ℕ
  | .null => 0
  | .number _ => 1
  | .text _ => 2
  | .list _ => 3
  | .object _ => 4

/-- The kind of value whose text begins with the character. -/
def kindOf : Char → ℕ
  | 'n' => 0
  | '"' => 2
  | '[' => 3
  | '\x7b' => 4
  | _ => 1

theorem kindOf_of_isDigit {c : Char} (h : c.isDigit) : kindOf c = 1 := by
  fun_cases kindOf c with
  | case1 | case2 | case3 | case4 => cases h
  | case5 => rfl

theorem exists_toList_bracket {opening : String} {c : Char} (h : opening.toList = [c]) (level : ℕ)
    (closing : String) (items : List String) :
    ∃ rest, (bracket level opening closing items).toList = c :: rest := by
  rw [bracket]
  split <;> simp [h]

/-- The first character of a text tells what kind of value it is. -/
theorem exists_toList_textAt (level : ℕ) (v : Json) :
    ∃ c rest, (textAt level v).toList = c :: rest ∧ kindOf c = v.kind := by
  cases v with
  | null => exact ⟨'n', ['u', 'l', 'l'], by rw [textAt]; rfl, rfl⟩
  | number n =>
    obtain ⟨c, rest, hdigits⟩ := List.exists_cons_of_ne_nil (Numeral.decimalDigits_ne_nil n)
    have hc : c ∈ Numeral.decimalDigits n := by simp [hdigits]
    refine ⟨c, rest, ?_, kindOf_of_isDigit (Numeral.isDigit_of_mem_decimalDigits hc)⟩
    rw [textAt, Numeral.decimal, String.toList_ofList, hdigits]
  | text s => exact ⟨'"', _, by rw [textAt, quote, String.toList_ofList], rfl⟩
  | list items =>
    obtain ⟨rest, hrest⟩ := exists_toList_bracket (by rfl : "[".toList = ['[']) level "]"
      (itemTexts (level + 1) items)
    exact ⟨'[', rest, by rw [textAt, hrest], rfl⟩
  | object fields =>
    obtain ⟨rest, hrest⟩ := exists_toList_bracket (by rfl : "\x7b".toList = ['\x7b']) level "\x7d"
      (fieldTexts (level + 1) fields)
    exact ⟨'\x7b', rest, by rw [textAt, hrest], rfl⟩

theorem kind_eq_of_textAt_append_eq {level : ℕ} {v w : Json} {rest rest' : List Char}
    (h : (textAt level v).toList ++ rest = (textAt level w).toList ++ rest') : v.kind = w.kind := by
  obtain ⟨c, _, hv, hkind⟩ := exists_toList_textAt level v
  obtain ⟨d, _, hw, hkind'⟩ := exists_toList_textAt level w
  rw [hv, hw, List.cons_append, List.cons_append, List.cons.injEq] at h
  rw [← hkind, ← hkind', h.1]

theorem isDelimited_fieldText {level : ℕ} {field : String × Json}
    (h : IsDelimited (textAt level) field.2) : IsDelimited (fieldText level) field := by
  intro field' rest rest' hrest hrest' heq
  simp only [fieldText, String.toList_append, List.append_assoc] at heq
  obtain ⟨hkey, heq⟩ := quote_append_inj heq
  obtain ⟨hvalue, hrest⟩ := h _ _ _ hrest hrest' (List.append_cancel_left heq)
  exact ⟨Prod.ext hkey hvalue, hrest⟩

/-- The text of every value ends where it ends, at any level and whatever follows it. -/
theorem isDelimited_textAt (level : ℕ) (v : Json) : IsDelimited (textAt level) v := by
  -- A text of another kind of value is told apart by its first character already.
  induction v using Json.induction generalizing level with
  | null =>
    intro w rest rest' _ _ h
    cases w with
    | null => exact ⟨rfl, List.append_cancel_left h⟩
    | number | text | list | object => cases kind_eq_of_textAt_append_eq h
  | number n =>
    intro w rest rest' hrest hrest' h
    cases w with
    | number m =>
      rw [textAt, textAt] at h
      obtain ⟨rfl, rfl⟩ := isDelimited_decimal n m rest rest' hrest hrest' h
      exact ⟨rfl, rfl⟩
    | null | text | list | object => cases kind_eq_of_textAt_append_eq h
  | text s =>
    intro w rest rest' _ _ h
    cases w with
    | text t =>
      rw [textAt, textAt] at h
      obtain ⟨rfl, rfl⟩ := quote_append_inj h
      exact ⟨rfl, rfl⟩
    | null | number | list | object => cases kind_eq_of_textAt_append_eq h
  | list items ih =>
    intro w rest rest' _ _ h
    cases w with
    | list items' =>
      rw [textAt_list, textAt_list] at h
      obtain ⟨rfl, rfl⟩ := bracket_append_inj rfl (by decide) (fun v hv => ih v hv (level + 1)) h
      exact ⟨rfl, rfl⟩
    | null | number | text | object => cases kind_eq_of_textAt_append_eq h
  | object fields ih =>
    intro w rest rest' _ _ h
    cases w with
    | object fields' =>
      rw [textAt_object, textAt_object] at h
      obtain ⟨rfl, rfl⟩ := bracket_append_inj rfl (by decide)
        (fun field hfield => isDelimited_fieldText (ih field hfield (level + 1))) h
      exact ⟨rfl, rfl⟩
    | null | number | text | list => cases kind_eq_of_textAt_append_eq h

/-- Values with the same text are equal. -/
theorem pretty_injective : Function.Injective pretty := by
  intro v w h
  have hnil : NoDigit [] := nofun
  exact (isDelimited_textAt 0 v w [] [] hnil hnil (by rw [← pretty, h, pretty])).1

end CallLayout.Json

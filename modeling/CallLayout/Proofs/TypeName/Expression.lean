import CallLayout.Proofs.Text.Decimal
import CallLayout.Proofs.TypeName.Delimiter

/-!
# Type expressions

The written forms of types as a grammar: paths, which may have arguments, tuples, functions,
references, pointers, slices and arrays, nested in any way. Shortening the written form of a type
gives the written form of the type without its module paths (`Expression.short_text_eq`).

The module introduces:

* `Path` and `Expression`: paths and types, with their written forms `Path.text` and
  `Expression.text`;
* `Expression.unqualified`: the type in which every path is its last word alone.

In a written form every path and every keyword is next to delimiters only, so that each rule of the
grammar is shortened part by part.
-/

namespace CallLayout.TypeName

/-! ## The grammar -/

/-- A word of a path: letters and digits of any script and underscores. -/
structure Identifier where
  /-- The written form. -/
  text : String
  /-- There is at least one character, -/
  ne_empty : text ≠ ""
  /-- and each of them is one of a word. -/
  isWordChar_of_mem : ∀ c ∈ text.toList, isWordChar c

/-- A path: the modules that lead to a name, outermost first, and the name. -/
structure Path where
  /-- The modules. -/
  modules : List Identifier
  /-- The name. -/
  name : Identifier

namespace Path

/-- The written form of a path. -/
def text (p : Path) : String :=
  Text.join "::" ((p.modules ++ [p.name]).map Identifier.text)

/-- The path of the name alone. -/
def unqualified (p : Path) : Path :=
  { p with modules := [] }

end Path

/-- What points to a value. -/
inductive Pointer where
  /-- A reference. -/
  | reference
  /-- A pointer that the value is not changed through. -/
  | const
  /-- A pointer that the value may be changed through. -/
  | mut

/-- The mark in front of the type pointed to. -/
def Pointer.mark : Pointer → String
  | .reference => "&"
  | .const => "*const "
  | .mut => "*mut "

/-- A type. A number is the length of an array or stands among the arguments of a path; the grammar
allows it wherever a type may stand. -/
inductive Expression where
  /-- `path` -/
  | path (p : Path)
  /-- `path<T, ..., T>` -/
  | generic (p : Path) (arguments : List Expression)
  /-- `n` -/
  | number (n : ℕ)
  /-- `()`, `(T,)` or `(T, ..., T)` -/
  | tuple (items : List Expression)
  /-- `fn(T, ..., T)` -/
  | procedure (parameters : List Expression)
  /-- `fn(T, ..., T) -> T` -/
  | function (parameters : List Expression) (result : Expression)
  /-- `&T`, `*const T` or `*mut T` -/
  | pointer (kind : Pointer) (target : Expression)
  /-- `[T]` -/
  | slice (item : Expression)
  /-- `[T; n]` -/
  | array (item : Expression) (length : ℕ)

namespace Expression

/-- The written form of a tuple. A comma tells a single item from the item in parentheses. -/
def tupleText : List String → String
  | [item] => "(" ++ item ++ ",)"
  | items => "(" ++ Text.join ", " items ++ ")"

mutual

/-- The written form of a type. -/
def text : Expression → String
  | .path p => p.text
  | .generic p arguments => p.text ++ "<" ++ Text.join ", " (texts arguments) ++ ">"
  | .number n => Numeral.decimal n
  | .tuple items => tupleText (texts items)
  | .procedure parameters => "fn(" ++ Text.join ", " (texts parameters) ++ ")"
  | .function parameters result =>
    "fn(" ++ Text.join ", " (texts parameters) ++ ") -> " ++ text result
  | .pointer kind target => kind.mark ++ text target
  | .slice item => "[" ++ text item ++ "]"
  | .array item length => "[" ++ text item ++ "; " ++ Numeral.decimal length ++ "]"

/-- The written forms of several types. -/
def texts : List Expression → List String
  | [] => []
  | e :: es => text e :: texts es

end

mutual

/-- The type with every path replaced by its last word. -/
def unqualified : Expression → Expression
  | .path p => .path p.unqualified
  | .generic p arguments => .generic p.unqualified (unqualifiedAll arguments)
  | .number n => .number n
  | .tuple items => .tuple (unqualifiedAll items)
  | .procedure parameters => .procedure (unqualifiedAll parameters)
  | .function parameters result => .function (unqualifiedAll parameters) (unqualified result)
  | .pointer kind target => .pointer kind (unqualified target)
  | .slice item => .slice (unqualified item)
  | .array item length => .array (unqualified item) length

/-- Several types with every path replaced by its last word. -/
def unqualifiedAll : List Expression → List Expression
  | [] => []
  | e :: es => unqualified e :: unqualifiedAll es

end

/-- A property of all types: each rule of the grammar keeps it. -/
@[elab_as_elim, induction_eliminator]
theorem induction {motive : Expression → Prop} (path : ∀ p, motive (.path p))
    (generic : ∀ p arguments, (∀ e ∈ arguments, motive e) → motive (.generic p arguments))
    (number : ∀ n, motive (.number n))
    (tuple : ∀ items, (∀ e ∈ items, motive e) → motive (.tuple items))
    (procedure : ∀ parameters, (∀ e ∈ parameters, motive e) → motive (.procedure parameters))
    (function : ∀ parameters result, (∀ e ∈ parameters, motive e) → motive result →
      motive (.function parameters result))
    (pointer : ∀ kind target, motive target → motive (.pointer kind target))
    (slice : ∀ item, motive item → motive (.slice item))
    (array : ∀ item length, motive item → motive (.array item length)) (e : Expression) :
    motive e :=
  -- The recursion goes through lists of types as well.
  @Expression.rec motive (fun es => ∀ e ∈ es, motive e) path generic number tuple procedure
    function pointer slice array nofun
    (fun _ _ h hs => List.forall_mem_cons.mpr ⟨h, hs⟩) e

theorem texts_eq_map (es : List Expression) : texts es = es.map text := by
  induction es with
  | nil => rfl
  | cons e es ih => rw [texts, ih, List.map_cons]

theorem unqualifiedAll_eq_map (es : List Expression) : unqualifiedAll es = es.map unqualified := by
  induction es with
  | nil => rfl
  | cons e es ih => rw [unqualifiedAll, ih, List.map_cons]

end Expression

/-! ## Paths -/

/-- The characters of a word are held back with what is held back already. -/
theorem shortenAfter_append_of_isWordChar {s : List Char} (h : ∀ c ∈ s, isWordChar c)
    (word rest : List Char) : shortenAfter word (s ++ rest) = shortenAfter (word ++ s) rest := by
  induction s generalizing word with
  | nil => simp
  | cons c s ih =>
    rw [List.forall_mem_cons] at h
    rw [List.cons_append, shortenAfter_cons_of_isWordChar h.1, ih h.2, List.append_assoc,
      List.singleton_append]

namespace Identifier

theorem short_text (i : Identifier) : short i.text = i.text := by
  apply short_of_colon_notMem
  intro h
  exact not_isWordChar_colon (i.isWordChar_of_mem ':' h)

/-- A separator drops the word before it. -/
theorem short_text_append (i : Identifier) (t : String) :
    short (i.text ++ "::" ++ t) = short t := by
  rw [← String.toList_inj, toList_short, toList_short, String.toList_append, String.toList_append,
    List.append_assoc, shorten, shortenAfter_append_of_isWordChar i.isWordChar_of_mem]
  simp [shortenAfter, shorten]

end Identifier

/-- A path is shortened to its name. -/
theorem Path.short_text (p : Path) : short p.text = p.unqualified.text := by
  obtain ⟨modules, name⟩ := p
  change short (Text.join "::" ((modules ++ [name]).map Identifier.text)) = name.text
  induction modules with
  | nil => exact name.short_text
  | cons i modules ih =>
    -- The name is behind the modules, so what follows the first of them is not empty.
    obtain ⟨next, rest, hnext⟩ :=
      List.exists_cons_of_ne_nil (by simp : (modules ++ [name]).map Identifier.text ≠ [])
    rw [List.cons_append, List.map_cons, hnext, Text.join, i.short_text_append, ← hnext, ih]

/-! ## The parts of a type -/

theorem short_decimal (n : ℕ) : short (Numeral.decimal n) = Numeral.decimal n := by
  apply short_of_colon_notMem
  exact (Numeral.writtenWith_decimal "" n).notMem (by decide) (by decide)

/-- The parts of a list are shortened one by one. -/
theorem short_join (texts : List String) :
    short (Text.join ", " texts) = Text.join ", " (texts.map short) := by
  have hcomma : IsClosing ", " ∧ IsOpening ", " := by decide +kernel
  fun_induction Text.join ", " texts with
  | case1 => rfl
  | case2 s => rfl
  | case3 s next rest ih =>
    rw [short_append_mark_append hcomma.1 hcomma.2, ih]
    rfl

namespace Expression

theorem short_tupleText (texts : List String) :
    short (tupleText texts) = tupleText (texts.map short) := by
  have hopening : IsOpening "(" := by decide +kernel
  have hclosing : IsClosing ",)" ∧ IsClosing ")" := by decide +kernel
  fun_cases tupleText texts with
  | case1 item => exact short_enclosed hopening hclosing.1 item
  | case2 texts hne =>
    rw [short_enclosed hopening hclosing.2, short_join, tupleText]
    -- There are still as many items.
    intro item hitem
    obtain ⟨s, hs, -⟩ := List.map_eq_singleton_iff.mp hitem
    exact hne s hs

theorem short_texts {es : List Expression} (h : ∀ e ∈ es, short e.text = e.unqualified.text) :
    (texts es).map short = texts (unqualifiedAll es) := by
  rw [texts_eq_map, texts_eq_map, unqualifiedAll_eq_map, List.map_map, List.map_map]
  exact List.map_congr_left h

/-- Shortening the written form of a type gives the written form of the type in which every path
is replaced by its last word. -/
theorem short_text_eq (e : Expression) : short e.text = e.unqualified.text := by
  induction e with
  | path p => exact p.short_text
  | generic p arguments ih =>
    have hopening : IsClosing "<" ∧ IsOpening "<" := by decide +kernel
    have hclosing : IsClosing ">" := by decide +kernel
    rw [text, unqualified, text, short_append_closing _ hclosing,
      short_append_mark_append hopening.1 hopening.2, p.short_text, short_join, short_texts ih]
  | number n => exact short_decimal n
  | tuple items ih => rw [text, unqualified, text, short_tupleText, short_texts ih]
  | procedure parameters ih =>
    have hopening : IsOpening "fn(" := by decide +kernel
    have hclosing : IsClosing ")" := by decide +kernel
    rw [text, unqualified, text, short_enclosed hopening hclosing, short_join, short_texts ih]
  | function parameters result ih ihresult =>
    have hopening : IsOpening "fn(" := by decide +kernel
    have harrow : IsClosing ") -> " ∧ IsOpening ") -> " := by decide +kernel
    rw [text, unqualified, text, short_append_mark_append harrow.1 harrow.2,
      short_opening_append hopening, short_join, short_texts ih, ihresult]
  | pointer kind target ih =>
    have hopening : IsOpening kind.mark := by cases kind <;> decide +kernel
    rw [text, unqualified, text, short_opening_append hopening, ih]
  | slice item ih =>
    have hopening : IsOpening "[" := by decide +kernel
    have hclosing : IsClosing "]" := by decide +kernel
    rw [text, unqualified, text, short_enclosed hopening hclosing, ih]
  | array item length ih =>
    have hopening : IsOpening "[" := by decide +kernel
    have hmiddle : IsClosing "; " ∧ IsOpening "; " := by decide +kernel
    have hclosing : IsClosing "]" := by decide +kernel
    rw [text, unqualified, text, short_append_closing _ hclosing,
      short_append_mark_append hmiddle.1 hmiddle.2, short_opening_append hopening, ih,
      short_decimal]

end Expression

end CallLayout.TypeName

import CallLayout.Proofs.Text.Decimal
import CallLayout.Report.Display

/-!
# The columns of a step

Both texts of a report tell what a step went over in at most two columns, one for its registers
and one for its stack bytes. They differ in their *wording* only, that is in what stands around
the columns. A column that is left out, and the dash for a step without columns, say that nothing
was gone over, but not where.

The module introduces:

* `Wording`: what stands around the columns, with `Wording.text` for the text of a step. A wording
  that cannot be taken for a part of the columns gives them back (`Wording.text_inj`).
* `StepLayout.IsForward`: the ranges of a step do not end before they start, and its names are
  those of its registers. Where such a step ends can be told from where it starts and its columns
  (`StepLayout.IsForward.columnsText_inj`).
-/

namespace CallLayout

open Text (WrittenWith)

/-! ## Wordings -/

/-- What a text puts around the columns of a step. -/
structure Wording where
  /-- The text of a step without columns. -/
  nothing : String
  /-- What stands before the registers. -/
  before : String
  /-- What stands between the registers and the stack bytes. -/
  between : String
  /-- What stands before the stack bytes if there are no registers. -/
  alone : String

namespace Wording

/-- What stands before the stack bytes. -/
def lead (w : Wording) : Option String → String
  | none => w.alone
  | some registers => w.before ++ registers ++ w.between

/-- The text of a step with the given columns. -/
def text (w : Wording) : Option String → Option String → String
  | none, none => w.nothing
  | some registers, none => w.before ++ registers
  | registers, some stack => w.lead registers ++ stack

/-- The wording of the full text. -/
def ofLine : Wording :=
  ⟨" -", " regs ", " stack ", " stack "⟩

/-- The wording of the summary. -/
def ofSummary : Wording :=
  ⟨"-", "", ",", ""⟩

/-- The wording cannot be taken for a part of the columns. -/
structure Distinct (w : Wording) : Prop where
  /-- The dash stands for a step without columns, -/
  dash : '-' ∈ w.nothing.toList
  /-- and there is neither a dash nor a plus sign around columns. -/
  plain : ∀ s ∈ [w.before, w.between, w.alone], WrittenWith " ," s
  /-- What surrounds registers is longer than what stands in their place. -/
  length : w.alone.length < w.before.length + w.between.length

theorem distinct_ofLine : ofLine.Distinct :=
  ⟨by decide, by decide, by decide⟩

theorem distinct_ofSummary : ofSummary.Distinct :=
  ⟨by decide, by decide, by decide⟩

/-- The columns are written as those of registers and of stack bytes. -/
structure AreColumns (r s : Option String) : Prop where
  registers : ∀ t ∈ r, WrittenWith ".," t
  stack : ∀ t ∈ s, WrittenWith ".+" t
  plus : ∀ t ∈ s, t.toList.head? = some '+'

variable {w : Wording} {r r' s s' : Option String}

theorem AreColumns.writtenWith_lead (h : AreColumns r s) {marks : String}
    (hw : ∀ t ∈ [w.before, w.between, w.alone], WrittenWith marks t)
    (hmarks : ".,".toList ⊆ marks.toList) : WrittenWith marks (w.lead r) := by
  cases r with
  | none => exact hw w.alone (by simp)
  | some registers =>
    have hregisters := (h.registers registers rfl).mono hmarks
    simp [lead, hw w.before, hw w.between, hregisters]

theorem text_some (w : Wording) (r : Option String) (stack : String) :
    w.text r (some stack) = w.lead r ++ stack := by
  cases r <;> rfl

theorem AreColumns.writtenWith_text (h : AreColumns r s) {marks : String}
    (hw : ∀ t ∈ [w.nothing, w.before, w.between, w.alone], WrittenWith marks t)
    (hmarks : ".,+".toList ⊆ marks.toList) : WrittenWith marks (w.text r s) := by
  cases s with
  | none =>
    cases r with
    | none => exact hw w.nothing (by simp)
    | some registers =>
      have hregisters := (h.registers registers rfl).mono (List.Subset.trans (by decide) hmarks)
      simp [text, hw w.before, hregisters]
  | some stack =>
    have hlead := h.writtenWith_lead (fun t ht => hw t (List.mem_cons_of_mem _ ht))
      (List.Subset.trans (by decide) hmarks)
    have hstack := (h.stack stack rfl).mono (List.Subset.trans (by decide) hmarks)
    simp [text_some, hlead, hstack]

theorem Distinct.notMem_lead (hw : w.Distinct) (h : AreColumns r s) {c : Char}
    (hc : c = '-' ∨ c = '+') : c ∉ (w.lead r).toList := by
  have hlead : WrittenWith " ,." (w.lead r) :=
    h.writtenWith_lead (fun t ht => (hw.plain t ht).mono (by decide)) (by decide)
  rcases hc with rfl | rfl <;> exact hlead.notMem (by decide) (by decide)

/-- Registers cannot be taken for what stands in their place. -/
theorem Distinct.lead_inj (hw : w.Distinct) (h : w.lead r = w.lead r') : r = r' := by
  -- Registers are longer than what stands in their place, even if their own text is empty.
  have hlength := congrArg String.length h
  have hshort := hw.length
  cases r with
  | none =>
    cases r' with
    | none => rfl
    | some registers' =>
      simp only [lead, String.length_append] at hlength
      omega
  | some registers =>
    cases r' with
    | none =>
      simp only [lead, String.length_append] at hlength
      omega
    | some registers' =>
      simp only [lead, String.append_left_inj, String.append_right_inj] at h
      rw [h]

/-- The dash tells a step without columns from the others, -/
theorem Distinct.dash_mem_text_iff (hw : w.Distinct) (h : AreColumns r s) :
    '-' ∈ (w.text r s).toList ↔ r = none ∧ s = none := by
  have hlead := hw.notMem_lead h (.inl rfl)
  cases s with
  | some stack =>
    have hstack := (h.stack stack rfl).notMem (c := '-') (by decide) (by decide)
    simp [text_some, hlead, hstack]
  | none =>
    cases r with
    | none => simp [text, hw.dash]
    | some registers =>
      have hbefore := (hw.plain w.before (by simp)).notMem (c := '-') (by decide) (by decide)
      have hregisters := (h.registers registers rfl).notMem (c := '-') (by decide) (by decide)
      simp [text, hbefore, hregisters]

/-- and the plus sign those with stack bytes. -/
theorem Distinct.plus_mem_text_iff (hw : w.Distinct) (h : AreColumns r s)
    (hne : ¬ (r = none ∧ s = none)) : '+' ∈ (w.text r s).toList ↔ s.isSome := by
  cases s with
  | some stack =>
    have hplus := List.mem_of_head? (h.plus stack rfl)
    simp [text_some, hplus]
  | none =>
    obtain ⟨registers, rfl⟩ := Option.ne_none_iff_exists'.mp fun hr => hne ⟨hr, rfl⟩
    have hbefore := (hw.plain w.before (by simp)).notMem (c := '+') (by decide) (by decide)
    have hregisters := (h.registers registers rfl).notMem (c := '+') (by decide) (by decide)
    simp [text, hbefore, hregisters]

/-- A wording that cannot be taken for a part of the columns gives them back. -/
theorem Distinct.text_inj (hw : w.Distinct) (h : AreColumns r s) (h' : AreColumns r' s')
    (heq : w.text r s = w.text r' s') : r = r' ∧ s = s' := by
  have hdash : (r = none ∧ s = none) ↔ (r' = none ∧ s' = none) := by
    rw [← hw.dash_mem_text_iff h, heq, hw.dash_mem_text_iff h']
  by_cases hnone : r = none ∧ s = none
  · have hnone' := hdash.mp hnone
    exact ⟨hnone.1.trans hnone'.1.symm, hnone.2.trans hnone'.2.symm⟩
  have hplus : s.isSome ↔ s'.isSome := by
    rw [← hw.plus_mem_text_iff h hnone, heq, hw.plus_mem_text_iff h' (mt hdash.mpr hnone)]
  cases s with
  | none =>
    -- Without stack bytes, both texts are the registers behind the same words.
    obtain rfl : s' = none := by simpa using hplus
    obtain ⟨registers, rfl⟩ := Option.ne_none_iff_exists'.mp fun hr => hnone ⟨hr, rfl⟩
    obtain ⟨registers', rfl⟩ :=
      Option.ne_none_iff_exists'.mp fun hr => mt hdash.mpr hnone ⟨hr, rfl⟩
    simp only [text, String.append_right_inj] at heq
    rw [heq]
    exact ⟨rfl, rfl⟩
  | some stack =>
    -- The stack bytes begin at the first plus sign.
    obtain ⟨stack', rfl⟩ := Option.isSome_iff_exists.mp (hplus.mp rfl)
    rw [text_some, text_some] at heq
    obtain ⟨hlead, rfl⟩ := Text.append_inj_of_head? (hw.notMem_lead h (.inr rfl))
      (hw.notMem_lead h' (.inr rfl)) (h.plus stack rfl) (h'.plus stack' rfl) heq
    exact ⟨hw.lead_inj hlead, rfl⟩

end Wording

/-! ## Ranges -/

namespace Span

variable {a b : Span}

/-- A range that does not end before it starts and holds nothing ends where it starts. -/
theorem stop_eq_start (hle : a.start ≤ a.stop) (h : a.isEmpty) : a.stop = a.start :=
  UInt64.le_antisymm (of_decide_eq_true h) hle

theorem eq_of_start_eq (hstart : a.start = b.start) (hstop : a.stop = b.stop) : a = b := by
  cases a
  cases b
  simp_all

theorem text_inj (hstart : a.start = b.start) (h : a.text = b.text) : a = b := by
  simp only [text, hstart, String.append_right_inj] at h
  exact eq_of_start_eq hstart (Numeral.ofWord_inj h)

theorem offsetText_inj (hstart : a.start = b.start) (h : a.offsetText = b.offsetText) : a = b := by
  simp only [offsetText, hstart, String.append_right_inj] at h
  exact eq_of_start_eq hstart (Numeral.ofWord_inj h)

/-- The column with the given text, left out for a range that holds nothing. -/
def column? (a : Span) (text : String) : Option String :=
  if a.isEmpty then none else some text

theorem eq_of_mem_column? {text t : String} (h : t ∈ a.column? text) : text = t := by
  rw [column?, Option.mem_def] at h
  simp_all

/-- Ranges that start together and have equal columns end together, if they do so when their
texts are equal. -/
theorem column_inj {text text' : String} (hle : a.start ≤ a.stop) (hle' : b.start ≤ b.stop)
    (hstart : a.start = b.start) (htext : text = text' → a = b)
    (h : a.column? text = b.column? text') : a = b := by
  rw [column?, column?] at h
  cases ha : a.isEmpty <;> cases hb : b.isEmpty <;> simp only [ha, hb] at h
  · exact htext (Option.some.inj h)
  · cases h
  · cases h
  · exact eq_of_start_eq hstart (by rw [stop_eq_start hle ha, stop_eq_start hle' hb, hstart])

theorem writtenWith_text (a : Span) : WrittenWith "." a.text := by
  simpa [text] using (by decide : WrittenWith "." "..")

theorem writtenWith_offsetText (a : Span) : WrittenWith ".+" a.offsetText := by
  have hplus : WrittenWith ".+" "+" := by decide
  have hdots : WrittenWith ".+" "..+" := by decide
  simp [offsetText, hplus, hdots]

theorem head?_offsetText (a : Span) : a.offsetText.toList.head? = some '+' := by
  simp [offsetText]

end Span

/-! ## Register names -/

namespace Convention

variable {P R A : Type} {c : Convention P R A}

/-- Names are collected only if every register has one. -/
theorem registerNamesFrom?_eq (c : Convention P R A) (first count : ℕ) :
    c.registerNamesFrom? first count =
      if count = 0 ∨ first + count ≤ c.registerNames.length then
        some ((c.registerNames.drop first).take count)
      else none := by
  induction count generalizing first with
  | zero => simp [registerNamesFrom?]
  | succ count ih =>
    rw [registerNamesFrom?, registerName?, ih]
    by_cases hfirst : first < c.registerNames.length
    · rw [List.drop_eq_getElem_cons hfirst, List.take_succ_cons, List.getElem?_eq_getElem hfirst]
      have hcond : (count = 0 ∨ first + 1 + count ≤ c.registerNames.length) ↔
          (count + 1 = 0 ∨ first + (count + 1) ≤ c.registerNames.length) := by omega
      simp only [hcond]
      split <;> rfl
    · have hpast : ¬(count + 1 = 0 ∨ first + (count + 1) ≤ c.registerNames.length) := by omega
      rw [List.getElem?_eq_none (Nat.not_lt.mp hfirst), if_neg hpast]
      rfl

/-- The names of a range within all names are the slice that it cuts out of them. -/
theorem registerNamesIn_of_le {a : Span} (hle : a.start ≤ a.stop)
    (hwithin : a.stop.toNat ≤ c.registerNames.length) :
    c.registerNamesIn a = c.registerNames.extract a.start.toNat a.stop.toNat := by
  have hstop : a.start.toNat + (a.stop.toNat - a.start.toNat) = a.stop.toNat :=
    Nat.add_sub_cancel' (UInt64.le_iff_toNat_le.mp hle)
  rw [registerNamesIn, registerNamesFrom?_eq, if_pos (.inr (hstop.trans_le hwithin))]
  rfl

/-- A range has such a slice for its names if it holds something and is within all names, and no
names otherwise. -/
theorem registerNamesIn_eq (c : Convention P R A) (a : Span) :
    c.registerNamesIn a =
      if a.start < a.stop ∧ a.stop.toNat ≤ c.registerNames.length then
        c.registerNames.extract a.start.toNat a.stop.toNat
      else [] := by
  by_cases hlt : a.start < a.stop
  · have hlt' : a.start.toNat < a.stop.toNat := UInt64.lt_iff_toNat_lt.mp hlt
    by_cases hwithin : a.stop.toNat ≤ c.registerNames.length
    · rw [if_pos ⟨hlt, hwithin⟩, registerNamesIn_of_le (UInt64.le_of_lt hlt) hwithin]
    · rw [if_neg fun h => hwithin h.2, registerNamesIn, registerNamesFrom?_eq, if_neg (by omega)]
      rfl
  · -- No register, no name.
    have hstop : a.stop.toNat ≤ a.start.toNat :=
      UInt64.le_iff_toNat_le.mp (UInt64.not_lt.mp hlt)
    rw [if_neg fun h => hlt h.1, registerNamesIn, Nat.sub_eq_zero_of_le hstop]
    rfl

theorem registerNamesIn_subset (c : Convention P R A) (a : Span) :
    c.registerNamesIn a ⊆ c.registerNames := by
  rw [registerNamesIn_eq]
  split
  · exact List.Subset.trans (List.take_subset _ _) (List.drop_subset _ _)
  · exact List.nil_subset _

/-- If the registers of a range are named, there are as many names as registers. -/
theorem length_registerNamesIn {a : Span} (h : c.registerNamesIn a ≠ []) :
    (c.registerNamesIn a).length = a.stop.toNat - a.start.toNat := by
  rw [registerNamesIn_eq] at h ⊢
  split at h
  next hwithin =>
    rw [if_pos hwithin, List.length_take, List.length_drop]
    omega
  next => exact absurd rfl h

end Convention

/-! ## Columns -/

namespace StepLayout

variable {P R A : Type} {c : Convention P R A} {l l' : StepLayout}

/-- The step goes over ranges that do not end before they start, and names its registers as the
convention does. -/
structure IsForward (c : Convention P R A) (l : StepLayout) : Prop where
  registers : l.registers.start ≤ l.registers.stop
  stack : l.stack.start ≤ l.stack.stop
  names : l.registerNames = c.registerNamesIn l.registers

/-- The text of what the step went over. -/
def columnsText (w : Wording) (l : StepLayout) : String :=
  w.text (l.registers.column? l.registersText) (l.stack.column? l.stack.offsetText)

theorem rangesText_eq (l : StepLayout) : l.rangesText = l.columnsText .ofLine := by
  rw [rangesText, isEmpty, columnsText, Span.column?, Span.column?]
  cases l.registers.isEmpty <;> cases l.stack.isEmpty <;>
    simp [Wording.text, Wording.lead, Wording.ofLine, String.append_assoc]

/-- A step over no registers has no names. -/
theorem IsForward.registerNames_eq_nil (h : IsForward c l) (hempty : l.registers.isEmpty) :
    l.registerNames = [] := by
  have hstop := Span.stop_eq_start h.registers hempty
  simp [h.names, Convention.registerNamesIn, hstop, Convention.registerNamesFrom?]

theorem IsForward.summary_eq (h : IsForward c l) :
    l.summary = l.step.shortLabel ++ ":" ++ l.columnsText .ofSummary := by
  -- The summary looks at the names first, the wording at the registers.
  have hnames := h.registerNames_eq_nil
  rw [summary, isEmpty, summaryRegisters, summaryStack, columnsText, Span.column?, Span.column?,
    registersText]
  cases hregisters : l.registers.isEmpty <;> cases l.stack.isEmpty <;>
    simp_all [Wording.text, Wording.lead, Wording.ofSummary, String.append_assoc]

/-! ## Reading the columns -/

section Readable

variable (hplain : ∀ name ∈ c.registerNames, WrittenWith "" name)
include hplain

theorem IsForward.writtenWith_names (h : IsForward c l) :
    ∀ name ∈ l.registerNames, WrittenWith "" name :=
  fun name hname => hplain name (c.registerNamesIn_subset _ (h.names ▸ hname))

theorem IsForward.writtenWith_registersText (h : IsForward c l) :
    WrittenWith ".," l.registersText := by
  rw [registersText]
  split
  · exact (Span.writtenWith_text _).mono (by decide)
  · exact .join (by decide) fun name hname => (h.writtenWith_names hplain name hname).mono (by simp)

theorem IsForward.areColumns (h : IsForward c l) :
    Wording.AreColumns (l.registers.column? l.registersText)
      (l.stack.column? l.stack.offsetText) where
  registers _ ht := Span.eq_of_mem_column? ht ▸ h.writtenWith_registersText hplain
  stack _ ht := Span.eq_of_mem_column? ht ▸ Span.writtenWith_offsetText _
  plus _ ht := Span.eq_of_mem_column? ht ▸ Span.head?_offsetText _

/-- Numbers are written with dots, names without. -/
theorem IsForward.dot_mem_registersText_iff (h : IsForward c l) :
    '.' ∈ l.registersText.toList ↔ l.registerNames = [] := by
  by_cases hnil : l.registerNames = []
  · simp [registersText, hnil, Span.text]
  · have hjoin : WrittenWith "," (Text.join "," l.registerNames) :=
      .join (by decide) fun name hname => (h.writtenWith_names hplain name hname).mono (by simp)
    simp [registersText, hnil, hjoin.notMem (c := '.') (by decide) (by decide)]

/-- The text of some registers tells where they end, be it in names or in numbers. -/
theorem IsForward.registersText_inj (h : IsForward c l) (h' : IsForward c l')
    (hstart : l.registers.start = l'.registers.start)
    (heq : l.registersText = l'.registersText) : l.registers = l'.registers := by
  -- Either both steps name their registers or both number them.
  have hnil : l.registerNames = [] ↔ l'.registerNames = [] := by
    rw [← h.dot_mem_registersText_iff hplain, heq, h'.dot_mem_registersText_iff hplain]
  by_cases hnames : l.registerNames = []
  · exact Span.text_inj hstart (by simpa [registersText, hnames, hnil.mp hnames] using heq)
  · -- Equally many names, so equally many registers from the same one on.
    have hnames' := mt hnil.mpr hnames
    replace heq : Text.join "," l.registerNames = Text.join "," l'.registerNames := by
      simpa [registersText, hnames, hnames'] using heq
    have hcomma : ∀ name, WrittenWith "" name → ',' ∉ name.toList :=
      fun name hname => hname.notMem (by decide) (by decide)
    have hlist := Text.join_inj (c := ',') rfl hnames hnames'
      (fun name hname => hcomma name (h.writtenWith_names hplain name hname))
      (fun name hname => hcomma name (h'.writtenWith_names hplain name hname)) heq
    have hlength := congrArg List.length hlist
    rw [h.names] at hnames hlength
    rw [h'.names] at hnames' hlength
    rw [Convention.length_registerNamesIn hnames, Convention.length_registerNamesIn hnames',
      hstart] at hlength
    have hle := UInt64.le_iff_toNat_le.mp h.registers
    have hle' := UInt64.le_iff_toNat_le.mp h'.registers
    rw [hstart] at hle
    exact Span.eq_of_start_eq hstart (UInt64.toNat_inj.mp (by omega))

/-- Where a step ends can be told from where it starts and its columns. -/
theorem IsForward.columnsText_inj (h : IsForward c l) (h' : IsForward c l') {w : Wording}
    (hw : w.Distinct) (hregisters : l.registers.start = l'.registers.start)
    (hstack : l.stack.start = l'.stack.start) (heq : l.columnsText w = l'.columnsText w) :
    l.registers = l'.registers ∧ l.stack = l'.stack := by
  obtain ⟨hleft, hright⟩ := hw.text_inj (h.areColumns hplain) (h'.areColumns hplain) heq
  constructor
  · exact Span.column_inj h.registers h'.registers hregisters
      (h.registersText_inj hplain h' hregisters) hleft
  · exact Span.column_inj h.stack h'.stack hstack (Span.offsetText_inj hstack) hright

end Readable

end StepLayout

end CallLayout

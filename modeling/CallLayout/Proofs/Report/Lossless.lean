import CallLayout.Proofs.Report.Columns
import CallLayout.Proofs.Report.Dependence

/-!
# What the texts of a report tell

Neither text of a report shows the ranges of a step that went over nothing, but both show enough
to tell where every step begins and ends, as long as no range is reversed. The first step begins
at zero and each other one where the step before it ended, so the columns of the steps determine
the ranges from left to right (`MeteredConvention.meters_eq`).

* Reports under one convention with the same summary differ in their types, their signatures and
  the text of the last position at most.
* Reports with the same full text have the same layout, whatever their conventions are.
-/

namespace CallLayout

open Text (WrittenWith writtenWith_append)

/-- What two functions tell about the entries of a list, a third one tells if it depends on
them only. -/
theorem map_eq_map_of_imp {α β γ δ : Type} {f : α → β} {g : α → γ} {h : α → δ} {xs ys : List α}
    (hf : xs.map f = ys.map f) (hg : xs.map g = ys.map g)
    (himp : ∀ x ∈ xs, ∀ y ∈ ys, f x = f y → g x = g y → h x = h y) : xs.map h = ys.map h := by
  induction xs generalizing ys with
  | nil =>
    obtain rfl : ys = [] := by simpa using hf.symm
    rfl
  | cons x xs ih =>
    cases ys with
    | nil => cases hf
    | cons y ys =>
      simp only [List.map_cons, List.cons.injEq] at hf hg ⊢
      refine ⟨himp x (by simp) y (by simp) hf.1 hg.1, ih hf.2 hg.2 fun a ha b hb => ?_⟩
      exact himp a (List.mem_cons_of_mem x ha) b (List.mem_cons_of_mem y hb)

/-! ## Words and lines -/

theorem Step.writtenWith_shortLabel (marks : String) (step : Step) :
    WrittenWith marks step.shortLabel := by
  have hresult : WrittenWith "" "result" := by decide
  have hargument : WrittenWith "" "arg" := by decide
  cases step with
  | result => exact hresult.mono (by simp)
  | argument index =>
    exact writtenWith_append.mpr ⟨hargument.mono (by simp), Numeral.writtenWith_decimal marks index⟩

theorem Step.writtenWith_label (step : Step) : WrittenWith " " step.label := by
  have hargument : WrittenWith " " "arg " := by decide
  cases step with
  | result => exact by decide
  | argument index => simp [label, hargument]

theorem Report.writtenWith_totalsText (r : Report) : WrittenWith ": ," r.totalsText := by
  have htotal : WrittenWith ": ," "total: " := by decide
  have hregisters : WrittenWith ": ," " registers, " := by decide
  have hstack : WrittenWith ": ," " stack bytes" := by decide
  simp [totalsText, htotal, hregisters, hstack]

namespace StepLayout

variable {P R A : Type} {c : Convention P R A} {l l' : StepLayout}

theorem IsForward.writtenWith_summary (h : IsForward c l)
    (hplain : ∀ name ∈ c.registerNames, WrittenWith "" name) :
    WrittenWith ":-.,+" l.summary := by
  have hcolon : WrittenWith ":-.,+" ":" := by decide
  have hcolumns : WrittenWith ":-.,+" (l.columnsText .ofSummary) :=
    (h.areColumns hplain).writtenWith_text (by decide) (by decide)
  rw [h.summary_eq]
  simp [l.step.writtenWith_shortLabel, hcolon, hcolumns]

theorem IsForward.columnsText_eq_of_summary_eq (h : IsForward c l) (h' : IsForward c l')
    (hstep : l.step = l'.step) (heq : l.summary = l'.summary) :
    l.columnsText .ofSummary = l'.columnsText .ofSummary := by
  rw [h.summary_eq, h'.summary_eq, hstep, String.append_right_inj] at heq
  exact heq

theorem IsForward.writtenWith_line (h : IsForward c l)
    (hplain : ∀ name ∈ c.registerNames, WrittenWith "" name)
    (htype : WrittenWith "<>()" l.type) : WrittenWith "<>() -.,+" l.line := by
  have hindent : WrittenWith "<>() -.,+" "  " := by decide
  have hspace : WrittenWith "<>() -.,+" " " := by decide
  have hlabel : WrittenWith "<>() -.,+" (Text.padEnd 8 l.step.label) :=
    (l.step.writtenWith_label.mono (by decide)).padEnd (by decide) 8
  have htypeColumn : WrittenWith "<>() -.,+" (Text.padEnd 12 l.type) :=
    (htype.mono (by decide)).padEnd (by decide) 12
  have hcolumns : WrittenWith "<>() -.,+" (l.columnsText .ofLine) :=
    (h.areColumns hplain).writtenWith_text (by decide) (by decide)
  rw [line, rangesText_eq]
  simp [hindent, hspace, hlabel, htypeColumn, hcolumns]

theorem head?_columnsText_ofLine (l : StepLayout) :
    (l.columnsText .ofLine).toList.head? = some ' ' := by
  rw [columnsText]
  cases l.registers.column? l.registersText <;> cases l.stack.column? l.stack.offsetText <;>
    simp [Wording.text, Wording.lead, Wording.ofLine]

/-- The type of a step ends at the first space behind it, which is there whether the type fills
its column or not. -/
theorem type_eq_of_line_eq (htype : WrittenWith "<>()" l.type) (htype' : WrittenWith "<>()" l'.type)
    (hstep : l.step = l'.step) (heq : l.line = l'.line) :
    l.type = l'.type ∧ l.columnsText .ofLine = l'.columnsText .ofLine := by
  have hspace : ∀ l : StepLayout, (String.ofList (List.replicate (12 - l.type.toList.length) ' ') ++
      l.columnsText .ofLine).toList.head? = some ' ' := by
    intro l
    cases h : 12 - l.type.toList.length <;>
      simp [List.replicate_succ, head?_columnsText_ofLine]
  simp only [line, rangesText_eq, hstep, Text.padEnd, String.append_assoc,
    String.append_right_inj] at heq
  obtain ⟨ht, hrest⟩ := Text.append_inj_of_head? (htype.notMem (by decide) (by decide))
    (htype'.notMem (by decide) (by decide)) (hspace l) (hspace l') heq
  rw [ht, String.append_right_inj] at hrest
  exact ⟨ht, hrest⟩

end StepLayout

/-! ## Where the steps end -/

namespace MeteredConvention

variable {P R A : Type} {c : MeteredConvention P R A}

/-- Walks that begin alike and whose steps have the same columns hand out the same. -/
theorem meters_eq (hplain : ∀ name ∈ c.registerNames, WrittenWith "" name) {w : Wording}
    (hw : w.Distinct) {log log' : List LogEntry} {p p' : ℕ → P}
    (hforward : ∀ l ∈ c.layoutsAlong log p, l.IsForward c.toConvention)
    (hforward' : ∀ l ∈ c.layoutsAlong log' p', l.IsForward c.toConvention)
    (hregisters : c.registersUsed (p 0) = c.registersUsed (p' 0))
    (hstack : c.stackUsed (p 0) = c.stackUsed (p' 0))
    (heq : (c.layoutsAlong log p).map (StepLayout.columnsText w) =
      (c.layoutsAlong log' p').map (StepLayout.columnsText w)) :
    ∀ k ≤ log.length, c.registersUsed (p k) = c.registersUsed (p' k) ∧
      c.stackUsed (p k) = c.stackUsed (p' k) := by
  induction log generalizing log' p p' with
  | nil =>
    intro k hk
    obtain rfl := Nat.le_zero.mp hk
    exact ⟨hregisters, hstack⟩
  | cons entry log ih =>
    cases log' with
    | nil => simp [layoutsAlong] at heq
    | cons entry' log' =>
      rw [layoutsAlong_cons, List.forall_mem_cons] at hforward hforward'
      rw [layoutsAlong_cons, layoutsAlong_cons, List.map_cons, List.map_cons,
        List.cons.injEq] at heq
      -- The first steps end together, so the rest of the walks begins alike.
      obtain ⟨hspan, hspan'⟩ :=
        hforward.1.columnsText_inj hplain hforward'.1 hw hregisters hstack heq.1
      intro k hk
      cases k with
      | zero => exact ⟨hregisters, hstack⟩
      | succ k =>
        exact ih hforward.2 hforward'.2 (congrArg Span.stop hspan) (congrArg Span.stop hspan')
          heq.2 k (Nat.le_of_succ_le_succ hk)

end MeteredConvention

/-! ## Placements -/

/-- What a step tells besides the type that it places. -/
def StepLayout.placement (l : StepLayout) : Step × Span × Span × List String :=
  (l.step, l.registers, l.stack, l.registerNames)

theorem StepLayout.ext_placement {l l' : StepLayout} (h : l.placement = l'.placement)
    (htype : l.type = l'.type) : l = l' := by
  cases l
  cases l'
  simp_all [placement]

theorem StepLayout.summary_congr {l l' : StepLayout} (h : l.placement = l'.placement) :
    l.summary = l'.summary := by
  cases l
  cases l'
  simp only [placement, Prod.mk.injEq] at h
  obtain ⟨rfl, rfl, rfl, rfl⟩ := h
  rfl

/-- The summary shows nothing but placements. -/
theorem Report.summarize_congr {r r' : Report}
    (h : r.steps.map StepLayout.placement = r'.steps.map StepLayout.placement) :
    r.summarize = r'.summarize :=
  congrArg (Text.join " ")
    (map_eq_map_of_imp h h fun _ _ _ _ _ hplacement => StepLayout.summary_congr hplacement)

theorem Report.sameLayout_iff {r r' : Report} :
    r.SameLayout r' ↔ r.abi = r'.abi ∧ r.signature = r'.signature ∧ r.steps = r'.steps ∧
      r.registersUsed = r'.registersUsed ∧ r.stackUsed = r'.stackUsed := by
  cases r
  cases r'
  simp [SameLayout]

theorem Signature.map_step_log {R A : Type} [GuestType R] [GuestType A] (s : Signature R A) :
    s.log.map LogEntry.step = .result :: (List.range s.arguments.length).map .argument := by
  refine List.ext_getElem (by simp) fun k hk hk' => ?_
  cases k with
  | zero => rfl
  | succ k => simp [Signature.log]

namespace Abi

theorem writtenWith_registerNames (abi : Abi) :
    ∀ name ∈ abi.convention.registerNames, WrittenWith "" name := by
  cases abi <;> decide

theorem name_inj {abi abi' : Abi} (h : abi.name = abi'.name) : abi = abi' := by
  cases abi <;> cases abi' <;> first | rfl | simp [name] at h

theorem writtenWith_name (abi : Abi) : WrittenWith "" abi.name := by
  cases abi <;> decide

section Describe

variable {abi : Abi} {m : Machine} {s : Signature ResultType ValueType} {r : Report}

/-- A report of a reference convention is the report of a walk. -/
theorem exists_walk_of_describe (h : abi.describe m s = .ok r) :
    ∃ p : ℕ → abi.Position, abi.convention.Walk m.registers s.items p ∧
      p 0 = abi.convention.start m ∧ r = abi.convention.reportAlong s p := by
  rw [← MeteredConvention.describe_eq_ok_iff, ← describe_eq_describe_convention]
  exact h

theorem log_steps_of_describe (h : abi.describe m s = .ok r) :
    (r.steps.map fun l => ⟨l.step, l.type⟩) = s.log := by
  obtain ⟨p, -, -, rfl⟩ := exists_walk_of_describe h
  exact MeteredConvention.log_steps_reportAlong s p

theorem abi_eq_of_describe (h : abi.describe m s = .ok r) : r.abi = abi.name := by
  obtain ⟨p, -, -, rfl⟩ := exists_walk_of_describe h
  cases abi <;> rfl

end Describe

/-- The call has a report, and the stack bytes that it hands out fit a word. -/
structure Reports (abi : Abi) (m : Machine) (s : Signature ResultType ValueType)
    (r : Report) : Prop where
  describe : abi.describe m s = .ok r
  exactStack_lt : abi.exactStack m s.items < 2 ^ 64

namespace Reports

variable {abi : Abi} {m m' : Machine} {s s' : Signature ResultType ValueType} {r r' : Report}

theorem exists_walk (h : abi.Reports m s r) :
    ∃ p : ℕ → abi.Position, abi.convention.Walk m.registers s.items p ∧
      p 0 = abi.convention.start m ∧ r = abi.convention.reportAlong s p :=
  exists_walk_of_describe h.describe

theorem isForward (h : abi.Reports m s r) :
    ∀ l ∈ r.steps, l.IsForward abi.convention.toConvention := by
  obtain ⟨p, hwalk, hstart, rfl⟩ := h.exists_walk
  intro l hl
  obtain ⟨hregisters, hstack⟩ := ranges_le_of_exactStack_lt hwalk hstart h.exactStack_lt l hl
  obtain ⟨k, hk, rfl⟩ := List.getElem_of_mem hl
  rw [MeteredConvention.getElem_steps_reportAlong s p hk] at hregisters hstack ⊢
  exact ⟨hregisters, hstack, rfl⟩

theorem log_steps (h : abi.Reports m s r) : (r.steps.map fun l => ⟨l.step, l.type⟩) = s.log :=
  log_steps_of_describe h.describe

/-- How many steps there are is all that their order can differ in. -/
theorem map_step_eq (h : abi.Reports m s r) (h' : abi.Reports m' s' r')
    (hlength : r.steps.length = r'.steps.length) :
    r.steps.map StepLayout.step = r'.steps.map StepLayout.step := by
  -- The result comes first, then the arguments by their numbers.
  have hmap : ∀ {m s r}, abi.Reports m s r → r.steps.map StepLayout.step =
      .result :: (List.range (r.steps.length - 1)).map .argument := by
    intro m s r h
    have hlog := h.log_steps
    have hcount := congrArg List.length hlog
    rw [List.length_map, Signature.length_log] at hcount
    rw [hcount, Nat.add_sub_cancel, ← Signature.map_step_log, ← hlog, List.map_map]
    rfl
  rw [hmap h, hmap h', hlength]

/-- Reports with the same columns place the same, step by step and in total. -/
theorem placements_eq (h : abi.Reports m s r) (h' : abi.Reports m' s' r') {w : Wording}
    (hw : w.Distinct)
    (heq : r.steps.map (StepLayout.columnsText w) = r'.steps.map (StepLayout.columnsText w)) :
    r.steps.map StepLayout.placement = r'.steps.map StepLayout.placement ∧
      r.registersUsed = r'.registersUsed ∧ r.stackUsed = r'.stackUsed := by
  have hstep := h.map_step_eq h' (by simpa using congrArg List.length heq)
  -- Both walks begin with nothing handed out, so their meters agree at every position.
  have hforward := h.isForward
  have hforward' := h'.isForward
  obtain ⟨p, -, hstart, rfl⟩ := h.exists_walk
  obtain ⟨p', -, hstart', rfl⟩ := h'.exists_walk
  have hlength : s.arguments.length = s'.arguments.length := by
    simpa [MeteredConvention.length_steps_reportAlong] using congrArg List.length heq
  have hmeters := MeteredConvention.meters_eq abi.writtenWith_registerNames hw hforward hforward'
    (by rw [hstart, hstart', registersUsed_start, registersUsed_start])
    (by rw [hstart, hstart', stackUsed_start, stackUsed_start]) heq
  rw [Signature.length_log] at hmeters
  constructor
  · refine List.ext_getElem (by simpa using congrArg List.length heq) fun k hk hk' => ?_
    rw [List.length_map] at hk hk'
    have hle : k + 1 ≤ s.arguments.length + 1 := by
      rwa [← MeteredConvention.length_steps_reportAlong s p]
    obtain ⟨hregisters, hstack⟩ := hmeters k (Nat.le_of_succ_le hle)
    obtain ⟨hregisters', hstack'⟩ := hmeters (k + 1) hle
    have hentry := List.getElem_of_eq hstep (by simpa using hk)
    -- All that a placement holds besides its step are the meters on both sides.
    simp only [List.getElem_map, MeteredConvention.getElem_steps_reportAlong,
      StepLayout.placement, MeteredConvention.layoutBetween, MeteredConvention.stepLayout,
      MeteredConvention.recorderAt, hregisters, hregisters', hstack, hstack'] at hentry ⊢
    rw [hentry]
  · change abi.convention.registersUsed (p (s.arguments.length + 1)) =
        abi.convention.registersUsed (p' (s'.arguments.length + 1)) ∧
      abi.convention.stackUsed (p (s.arguments.length + 1)) =
        abi.convention.stackUsed (p' (s'.arguments.length + 1))
    rw [← hlength]
    exact hmeters _ le_rfl

/-! ## The texts -/

theorem steps_ne_nil (h : abi.Reports m s r) : r.steps ≠ [] := by
  intro hnil
  have hlog := h.log_steps
  rw [hnil] at hlog
  cases hlog

theorem writtenWith_type (h : abi.Reports m s r) :
    ∀ l ∈ r.steps, WrittenWith "<>()" l.type := by
  intro l hl
  have hentry : (⟨l.step, l.type⟩ : LogEntry) ∈ s.log := by
    rw [← h.log_steps]
    exact List.mem_map_of_mem hl
  rcases List.mem_cons.mp hentry with hresult | hargument
  · rw [show l.type = _ from congrArg LogEntry.type hresult]
    exact writtenWith_text_resultType s.result
  · obtain ⟨k, hk, hargument⟩ := List.mem_mapIdx.mp hargument
    rw [show l.type = _ from (congrArg LogEntry.type hargument).symm]
    exact (writtenWith_text_valueType _).mono (by decide)

theorem summarize_inj (h : abi.Reports m s r) (h' : abi.Reports m' s' r')
    (heq : r.summarize = r'.summarize) :
    r.steps.map StepLayout.placement = r'.steps.map StepLayout.placement := by
  -- No word has a space in it, so the words can be read back.
  have hspace : ∀ {m s r}, abi.Reports m s r →
      ∀ word ∈ r.steps.map StepLayout.summary, ' ' ∉ word.toList := by
    intro m s r h word hword
    obtain ⟨l, hl, rfl⟩ := List.mem_map.mp hword
    exact ((h.isForward l hl).writtenWith_summary abi.writtenWith_registerNames).notMem
      (by decide) (by decide)
  have hwords := Text.join_inj (c := ' ') rfl (by simpa using h.steps_ne_nil)
    (by simpa using h'.steps_ne_nil) (hspace h) (hspace h') heq
  have hstep := h.map_step_eq h' (by simpa using congrArg List.length hwords)
  have hcolumns := map_eq_map_of_imp hstep hwords fun l hl l' hl' =>
    (h.isForward l hl).columnsText_eq_of_summary_eq (h'.isForward l' hl')
  exact (h.placements_eq h' Wording.distinct_ofSummary hcolumns).1

theorem abi_eq (h : abi.Reports m s r) : r.abi = abi.name :=
  abi_eq_of_describe h.describe

theorem signature_eq (h : abi.Reports m s r) : r.signature = s.text := by
  obtain ⟨p, -, -, rfl⟩ := h.exists_walk
  rfl

theorem writtenWith_header (h : abi.Reports m s r) :
    WrittenWith ":<>() -.,+" (r.abi ++ ": " ++ r.signature) := by
  have hcolon : WrittenWith ":<>() -.,+" ": " := by decide
  have hname : WrittenWith ":<>() -.,+" abi.name := abi.writtenWith_name.mono (by decide)
  have hsignature : WrittenWith ":<>() -.,+" s.text := s.writtenWith_text.mono (by decide)
  simp [h.abi_eq, h.signature_eq, hcolon, hname, hsignature]

/-- The full text gives its lines back, whatever the conventions are. -/
theorem lines_inj {abi' : Abi} (h : abi.Reports m s r) (h' : abi'.Reports m' s' r')
    (heq : r.display = r'.display) :
    r.abi = r'.abi ∧ r.signature = r'.signature ∧
      r.steps.map StepLayout.line = r'.steps.map StepLayout.line := by
  -- No line has a line feed in it, whatever convention it is written under.
  have hnewline : ∀ {abi : Abi} {m s r}, abi.Reports m s r →
      ∀ line ∈ (r.abi ++ ": " ++ r.signature) :: r.steps.map StepLayout.line ++ [r.totalsText],
        '\n' ∉ line.toList := by
    intro abi m s r h line hline
    have hmarks : WrittenWith ":<>() -.,+" line := by
      rw [List.cons_append, List.mem_cons, List.mem_append, List.mem_singleton] at hline
      rcases hline with rfl | hline | rfl
      · exact h.writtenWith_header
      · obtain ⟨l, hl, rfl⟩ := List.mem_map.mp hline
        exact ((h.isForward l hl).writtenWith_line abi.writtenWith_registerNames
          (h.writtenWith_type l hl)).mono (by decide)
      · exact r.writtenWith_totalsText.mono (by decide)
    exact hmarks.notMem (by decide) (by decide)
  have hlines := Text.join_inj (c := '\n') rfl (by simp) (by simp) (hnewline h) (hnewline h') heq
  obtain ⟨hheader, hlines⟩ := List.cons.inj hlines
  -- The convention's name ends at the first colon.
  have hcolon : ∀ {abi : Abi} {m s r}, abi.Reports m s r → ':' ∉ r.abi.toList := by
    intro abi m s r h
    rw [h.abi_eq]
    exact (abi.writtenWith_name).notMem (by decide) (by decide)
  rw [String.append_assoc, String.append_assoc] at hheader
  obtain ⟨habi, hsignature⟩ := Text.append_inj_of_head? (hcolon h) (hcolon h')
    (by simp) (by simp) hheader
  rw [String.append_right_inj] at hsignature
  exact ⟨habi, hsignature, (List.append_inj' hlines rfl).1⟩

/-- The full text tells everything but the text of the last position. -/
theorem display_inj {abi' : Abi} (h : abi.Reports m s r) (h' : abi'.Reports m' s' r')
    (heq : r.display = r'.display) : r.SameLayout r' := by
  obtain ⟨habi, hsignature, hlines⟩ := h.lines_inj h' heq
  obtain rfl : abi = abi' := name_inj (by rw [← h.abi_eq, habi, h'.abi_eq])
  have hstep := h.map_step_eq h' (by simpa using congrArg List.length hlines)
  have hline : ∀ l ∈ r.steps, ∀ l' ∈ r'.steps, l.step = l'.step → l.line = l'.line →
      l.type = l'.type ∧ l.columnsText .ofLine = l'.columnsText .ofLine :=
    fun l hl l' hl' => StepLayout.type_eq_of_line_eq (h.writtenWith_type l hl)
      (h'.writtenWith_type l' hl')
  have htypes : r.steps.map StepLayout.type = r'.steps.map StepLayout.type :=
    map_eq_map_of_imp hstep hlines fun l hl l' hl' hs ht => (hline l hl l' hl' hs ht).1
  have hcolumns : r.steps.map (StepLayout.columnsText .ofLine) =
      r'.steps.map (StepLayout.columnsText .ofLine) :=
    map_eq_map_of_imp hstep hlines fun l hl l' hl' hs ht => (hline l hl l' hl' hs ht).2
  obtain ⟨hplacements, hregisters, hstack⟩ :=
    h.placements_eq h' Wording.distinct_ofLine hcolumns
  -- Placements and types together are all there is to a step.
  have hsteps : r.steps.map id = r'.steps.map id :=
    map_eq_map_of_imp hplacements htypes fun l _ l' _ => StepLayout.ext_placement
  rw [List.map_id, List.map_id] at hsteps
  exact Report.sameLayout_iff.mpr ⟨habi, hsignature, hsteps, hregisters, hstack⟩

end Reports

end Abi

/-- Both texts of a report tell everything about placement, as long as the stack bytes handed out
fit a word. Under one convention, reports have the same summary exactly if their steps are the
same up to types. Under any conventions, they have the same full text exactly if they are the same
up to the text of the last position. -/
theorem texts_lossless {abi₁ abi₂ : Abi} {m₁ m₂ : Machine}
    {s₁ s₂ : Signature ResultType ValueType} {r₁ r₂ : Report}
    (h₁ : abi₁.describe m₁ s₁ = .ok r₁) (h₂ : abi₂.describe m₂ s₂ = .ok r₂)
    (hfits₁ : abi₁.exactStack m₁ s₁.items < 2 ^ 64)
    (hfits₂ : abi₂.exactStack m₂ s₂.items < 2 ^ 64) :
    (abi₁ = abi₂ → (r₁.summarize = r₂.summarize ↔
      r₁.steps.map StepLayout.placement = r₂.steps.map StepLayout.placement)) ∧
    (r₁.display = r₂.display ↔
      r₁.abi = r₂.abi ∧ r₁.signature = r₂.signature ∧ r₁.steps = r₂.steps ∧
        r₁.registersUsed = r₂.registersUsed ∧ r₁.stackUsed = r₂.stackUsed) := by
  have hr₁ : abi₁.Reports m₁ s₁ r₁ := ⟨h₁, hfits₁⟩
  have hr₂ : abi₂.Reports m₂ s₂ r₂ := ⟨h₂, hfits₂⟩
  constructor
  · rintro rfl
    exact ⟨hr₁.summarize_inj hr₂, Report.summarize_congr⟩
  · rw [← Report.sameLayout_iff]
    exact ⟨hr₁.display_inj hr₂, Report.SameLayout.display_eq⟩

/-- The summary does not tell signed from unsigned numbers, nor one stack from another that is
aligned alike; the full text tells the former. -/
theorem texts_lossless_signed_and_unsigned :
    let m₁ : Machine := { Machine.zero with stackPointer := 0x8000 }
    let m₂ : Machine := { Machine.zero with stackPointer := 0x9008 }
    let s₁ : Signature ResultType ValueType :=
      ⟨.unit, [.scalar .u32, .blob 0, .scalar .i64, .blob 5]⟩
    let s₂ : Signature ResultType ValueType :=
      ⟨.unit, [.scalar .i32, .blob 0, .scalar .u64, .blob 5]⟩
    ∃ r₁ r₂, Abi.aapcs32.describe m₁ s₁ = .ok r₁ ∧ Abi.aapcs32.describe m₂ s₂ = .ok r₂ ∧
      r₁.summarize = r₂.summarize ∧ r₁.display ≠ r₂.display := by
  intro m₁ m₂ s₁ s₂
  have h₁ : Abi.aapcs32.describe m₁ s₁ = .ok _ := Aapcs32.describe_eq m₁ s₁
  have h₂ : Abi.aapcs32.describe m₂ s₂ = .ok _ := Aapcs32.describe_eq m₂ s₂
  have hfits₁ : Abi.aapcs32.exactStack m₁ s₁.items < 2 ^ 64 := by decide
  have hfits₂ : Abi.aapcs32.exactStack m₂ s₂.items < 2 ^ 64 := by decide
  obtain ⟨hsummary, hdisplay⟩ := texts_lossless h₁ h₂ hfits₁ hfits₂
  refine ⟨_, _, h₁, h₂, (hsummary rfl).mpr (by decide +kernel), fun hd => ?_⟩
  exact absurd (hdisplay.mp hd).2.1 (by decide +kernel)

end CallLayout

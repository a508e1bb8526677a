import CallLayout.Proofs.Walk
import CallLayout.Report

/-!
# The report of a walk

The recorder keeps counters of its own while it is told of the steps. They stay in step with the
positions, so a report is a function of the walk that placing the call goes through:
`reportAlong` writes that function down, and `describe_eq_ok_iff` says that the reports are
exactly the reports of walks. A call has no report exactly when placing it overflows
(`describe_eq_error_iff`), and its totals and its last position are those of the place where the
call ends (`map_ending_describe`).
-/

namespace CallLayout

/-- The steps of a call with the types they place, in order. -/
def Signature.log {R A : Type} [GuestType R] [GuestType A] (s : Signature R A) : List LogEntry :=
  ⟨.result, GuestType.text s.result⟩ ::
    s.arguments.mapIdx fun index type => ⟨.argument index, GuestType.text type⟩

@[simp]
theorem Signature.length_log {R A : Type} [GuestType R] [GuestType A] (s : Signature R A) :
    s.log.length = s.arguments.length + 1 := by
  simp [Signature.log]

/-- What a report says of the end of its call: the totals and the last position. -/
structure Report.Ending where
  /-- The number of argument registers handed out. -/
  registersUsed : UInt64
  /-- The number of stack bytes handed out. -/
  stackUsed : UInt64
  /-- The text of the last position. -/
  finalPosition : String
  deriving DecidableEq

/-- The end of the call that a report tells of. -/
def Report.ending (r : Report) : Report.Ending where
  registersUsed := r.registersUsed
  stackUsed := r.stackUsed
  finalPosition := r.finalPosition

namespace MeteredConvention

variable {P R A : Type}

/-- The layout of a step from the position `p` to the position `q`. -/
def layoutBetween (c : MeteredConvention P R A) (entry : LogEntry) (p q : P) : StepLayout :=
  c.stepLayout entry.step entry.type q (c.recorderAt p)

/-- The layouts of some steps, of which the `k`-th goes from `p k` to `p (k + 1)`. -/
def layoutsAlong (c : MeteredConvention P R A) (log : List LogEntry) (p : ℕ → P) :
    List StepLayout :=
  log.mapIdx fun k entry => c.layoutBetween entry (p k) (p (k + 1))

variable {c : MeteredConvention P R A} {registers : Registers}

theorem layoutsAlong_cons (entry : LogEntry) (log : List LogEntry) (p : ℕ → P) :
    c.layoutsAlong (entry :: log) p =
      c.layoutBetween entry (p 0) (p 1) :: c.layoutsAlong log fun k => p (k + 1) :=
  List.mapIdx_cons

/-- Observed arguments are recorded from position to position. -/
theorem watchNumbered_record [GuestType A] (index : ℕ) {types : List A} {p : ℕ → P}
    (done : List StepLayout) (h : c.Walk registers (types.map .argument) p) :
    c.watchNumbered c.record registers index types
        (p 0, { c.recorderAt (p 0) with steps := done }) =
      .ok (p types.length,
        { c.recorderAt (p types.length) with
          steps := done ++ c.layoutsAlong
            (types.mapIdx fun k type => ⟨.argument (index + k), GuestType.text type⟩) p }) := by
  induction types generalizing index p done with
  | nil => simp [Convention.watchNumbered, layoutsAlong]
  | cons type types ih =>
    obtain ⟨hhead, htail⟩ := Convention.walk_cons_iff.mp h
    change c.argument registers type (p 0) = .ok (p 1) at hhead
    rw [Convention.watchNumbered, hhead]
    -- The recorder now stands at `p 1`, with the layout of this step at the end of `done`.
    refine (ih (index + 1) _ htail).trans ?_
    simp [layoutsAlong_cons, layoutBetween, stepLayout, recorderAt, Nat.add_right_comm,
      Nat.add_assoc]

variable [GuestType R] [GuestType A]

/-- The report on a call whose placement goes through the positions `p 0`, `p 1`, and so on. -/
def reportAlong (c : MeteredConvention P R A) (s : Signature R A) (p : ℕ → P) : Report where
  abi := c.name
  signature := s.text
  steps := c.layoutsAlong s.log p
  registersUsed := c.registersUsed (p (s.arguments.length + 1))
  stackUsed := c.stackUsed (p (s.arguments.length + 1))
  finalPosition := c.positionText (p (s.arguments.length + 1))

section Steps

variable (s : Signature R A) (p : ℕ → P)

theorem length_steps_reportAlong :
    (c.reportAlong s p).steps.length = s.arguments.length + 1 := by
  simp [reportAlong, layoutsAlong]

theorem getElem_steps_reportAlong {k : ℕ} (h : k < (c.reportAlong s p).steps.length) :
    (c.reportAlong s p).steps[k] =
      c.layoutBetween
        (s.log.get ⟨k, by rwa [length_steps_reportAlong, ← s.length_log] at h⟩)
        (p k) (p (k + 1)) :=
  List.getElem_mapIdx

theorem log_steps_reportAlong :
    ((c.reportAlong s p).steps.map fun l => ⟨l.step, l.type⟩) = s.log := by
  refine List.ext_getElem (by simp [reportAlong, layoutsAlong]) fun k hk hk' => ?_
  simp [reportAlong, layoutsAlong, layoutBetween, stepLayout]

end Steps

/-- A call that goes along a walk is recorded from position to position. -/
theorem watchCall_record {s : Signature R A} {p : ℕ → P} (h : c.Walk registers s.items p) :
    c.watchCall c.record registers s (p 0, c.recorderAt (p 0)) =
      .ok (p (s.arguments.length + 1),
        { c.recorderAt (p (s.arguments.length + 1)) with steps := c.layoutsAlong s.log p }) := by
  obtain ⟨hresult, harguments⟩ := Convention.walk_cons_iff.mp h
  change c.result registers s.result (p 0) = .ok (p 1) at hresult
  rw [Convention.watchCall, Convention.watchResult, hresult]
  refine (watchNumbered_record 0 _ harguments).trans ?_
  simp [Signature.log, layoutsAlong_cons, layoutBetween, stepLayout, recorderAt]

/-- The report of a call that is placed without overflow is the report of its walk. -/
theorem describe_eq_reportAlong {m : Machine} {s : Signature R A} {p : ℕ → P}
    (h : c.Walk m.registers s.items p) (hstart : p 0 = c.start m) :
    c.describe m s = .ok (c.reportAlong s p) := by
  rw [describe, ← hstart, watchCall_record h]
  rfl

/-- Describing a call fails exactly where placing it does, and with the same overflow. -/
theorem describe_eq_error_iff {m : Machine} {s : Signature R A} {cause : Overflow} :
    c.describe m s = .error cause ↔
      c.placeCall m.registers s (c.start m) = .error cause := by
  have hwatch : (c.watchCall c.record m.registers s (c.start m, c.recorderAt (c.start m))).map
      Prod.fst = c.placeCall m.registers s (c.start m) :=
    Convention.map_fst_watchCall c.record s _
  rw [← hwatch, describe]
  cases c.watchCall c.record m.registers s (c.start m, c.recorderAt (c.start m)) with
  | error other =>
    constructor <;> intro h <;> cases h <;> rfl
  | ok reached => exact ⟨nofun, nofun⟩

/-- The reports of a call are the reports of its walks. -/
theorem describe_eq_ok_iff {m : Machine} {s : Signature R A} {r : Report} :
    c.describe m s = .ok r ↔
      ∃ p : ℕ → P, c.Walk m.registers s.items p ∧ p 0 = c.start m ∧ r = c.reportAlong s p := by
  constructor
  · intro h
    -- Without a placement there is no report either, so the call has a walk.
    cases hplace : c.placeCall m.registers s (c.start m) with
    | error cause =>
      rw [describe_eq_error_iff.mpr hplace] at h
      cases h
    | ok q =>
      rw [Convention.placeCall_eq_placeItems] at hplace
      obtain ⟨p, hwalk, hstart⟩ := Convention.exists_walk hplace
      refine ⟨p, hwalk, hstart, ?_⟩
      rw [describe_eq_reportAlong hwalk hstart] at h
      exact (Except.ok.inj h).symm
  · rintro ⟨p, hwalk, hstart, rfl⟩
    exact describe_eq_reportAlong hwalk hstart

/-- What the report of a call that ends at a position says of its end. -/
def endingAt (c : MeteredConvention P R A) (p : P) : Report.Ending where
  registersUsed := c.registersUsed p
  stackUsed := c.stackUsed p
  finalPosition := c.positionText p

/-- A report says of the end of its call what the position there tells. -/
theorem map_ending_describe (m : Machine) (s : Signature R A) :
    (c.describe m s).map Report.ending =
      (c.placeCall m.registers s (c.start m)).map c.endingAt := by
  rw [describe, ← Convention.map_fst_watchCall c.record s (c.start m, c.recorderAt (c.start m))]
  cases c.watchCall c.record m.registers s (c.start m, c.recorderAt (c.start m)) <;> rfl

/-- A call that is placed has a report, whose totals are those of the place where it ends. -/
theorem exists_describe_of_placeCall {m : Machine} {s : Signature R A} {p : P}
    (h : c.placeCall m.registers s (c.start m) = .ok p) :
    ∃ r, c.describe m s = .ok r ∧ r.registersUsed = c.registersUsed p ∧
      r.stackUsed = c.stackUsed p := by
  have hending : (c.describe m s).map Report.ending = .ok (c.endingAt p) := by
    rw [map_ending_describe, h]
    rfl
  cases hr : c.describe m s with
  | error cause => rw [hr] at hending; cases hending
  | ok r =>
    rw [hr] at hending
    have heq := Except.ok.inj hending
    exact ⟨r, rfl, congrArg Report.Ending.registersUsed heq, congrArg Report.Ending.stackUsed heq⟩

/-- Calls that are placed alike end alike in their reports. -/
theorem ending_describe_congr {m : Machine} {s s' : Signature R A}
    (h : c.placeCall m.registers s (c.start m) = c.placeCall m.registers s' (c.start m)) :
    (c.describe m s).map Report.ending = (c.describe m s').map Report.ending := by
  rw [map_ending_describe, map_ending_describe, h]

/-- If values end at the same place in whatever order they come, then so do calls that differ in
the order of their arguments. -/
theorem placeCall_perm {m : Machine}
    (h : ∀ items items' : List (Item R A), items.Perm items' →
      c.placeItems m.registers items (c.start m) = c.placeItems m.registers items' (c.start m))
    (s : Signature R A) {arguments : List A} (hperm : s.arguments.Perm arguments) :
    c.placeCall m.registers ⟨s.result, arguments⟩ (c.start m) =
        c.placeCall m.registers s (c.start m) ∧
      (c.describe m ⟨s.result, arguments⟩).map Report.ending =
        (c.describe m s).map Report.ending := by
  have hplace : c.placeCall m.registers ⟨s.result, arguments⟩ (c.start m) =
      c.placeCall m.registers s (c.start m) := by
    rw [Convention.placeCall_eq_placeItems, Convention.placeCall_eq_placeItems]
    exact h _ _ (Signature.items_perm hperm)
  exact ⟨hplace, ending_describe_congr hplace⟩

end MeteredConvention

end CallLayout

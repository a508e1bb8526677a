import CallLayout.CommandLine
import CallLayout.Proofs.Catalog
import CallLayout.Proofs.CommandLine.Arguments
import CallLayout.Proofs.Machine.FirstError

/-!
# How a layout command ends

The command that shows a layout can fail in several places: in its options, in the call's name, at
the state file and in the text of that file. `LayoutCommand.Ends` says for each of them what the
program then writes and the code it ends with, and that the earlier ones are fine. Laying the call
out is not among them, since it cannot fail for a call of the catalog. Every command ends in
exactly one of these ways, and that is what running it does (`run_arguments_eq_iff`).
-/

namespace CallLayout.CommandLine

/-! ## Answering a request -/

section Answer

variable {files : String → Except FileError String} {r : LayoutRequest} {call : GuestCall}
  {text? : Option String} {failure : Failure}

theorem answer_of_find?_eq_none (h : Catalog.find? r.call = none) :
    answer files (.layout r) = ⟨1, "", "Error: " ++ ("unknown guest call '" ++ r.call ++
      "', run `guest-abi list` for the catalog") ++ "\n"⟩ := by
  rw [answer, report, h]
  rfl

theorem answer_of_readState_error (hcall : Catalog.find? r.call = some call)
    (hstate : readState files r = .error failure) :
    answer files (.layout r) = ⟨1, "", failure.text⟩ := by
  simp only [answer, report, hcall, hstate, bind, Except.bind]

theorem answer_of_machineOf_error (hcall : Catalog.find? r.call = some call)
    (hstate : readState files r = .ok text?) (hmachine : machineOf r text? = .error failure) :
    answer files (.layout r) = ⟨1, "", failure.text⟩ := by
  simp only [answer, report, hcall, hstate, hmachine, bind, Except.bind]

theorem answer_of_describe {m : Machine} {result : Report}
    (hstate : readState files r = .ok text?) (hmachine : machineOf r text? = .ok m)
    (hresult : Catalog.describe r.abi r.call m = .ok result) :
    answer files (.layout r) = ⟨0, render r.json result, ""⟩ := by
  cases hcall : Catalog.find? r.call with
  | none =>
    rw [Catalog.describe_of_find?_eq_none hcall] at hresult
    cases hresult
  | some call =>
    simp only [answer, report, hcall, hstate, hmachine, hresult, bind, Except.bind,
      Except.mapError]

end Answer

/-! ## Outcomes -/

namespace LayoutCommand

/-- The convention and the stack pointer of the command can be read. -/
structure Reads (c : LayoutCommand) (abi : Abi) (stackPointer? : Option UInt64) : Prop where
  abi : Abi.read c.abi = .ok abi
  stackPointer : Option.Rel (fun text value => Value.read text = .ok value) c.stackPointer?
    stackPointer?

/-- The state file of the command describes the machine. If no file is given, all registers and the
stack pointer are zero. -/
inductive Loads (files : String → Except FileError String) (c : LayoutCommand) :
    Machine → Prop where
  | zero : c.stateFile? = none → Loads files c ⟨.replicate registerCount 0, 0⟩
  | file {file text : String} {m : Machine} : c.stateFile? = some file →
      files file = .ok text → Machine.read text = .ok m → Loads files c m

/-- How the command ends, where `files` says what comes of reading a file. In each way of failing,
what is looked at before is fine. -/
inductive Ends (files : String → Except FileError String) (c : LayoutCommand) : Outcome → Prop where
  /-- The convention's name is rejected, whatever else is wrong. -/
  | unknownAbi {cause : Error} :
      Abi.read c.abi = .error cause →
      Ends files c ⟨2, "", (UsageError.invalidValue c.abi .abi cause).line⟩
  /-- The stack pointer is rejected, whatever the call and the state file are. -/
  | invalidStackPointer {abi : Abi} {value : String} {cause : Error} :
      Abi.read c.abi = .ok abi → c.stackPointer? = some value →
      Value.read value = .error cause →
      Ends files c ⟨2, "", (UsageError.invalidValue value .stackPointer cause).line⟩
  /-- The call is not in the catalog, whatever the state file is. -/
  | unknownCall {abi : Abi} {stackPointer? : Option UInt64} :
      c.Reads abi stackPointer? → ¬ Catalog.Has c.call →
      Ends files c ⟨1, "", "Error: " ++ ("unknown guest call '" ++ c.call ++
        "', run `guest-abi list` for the catalog") ++ "\n"⟩
  /-- The state file is missing, or cannot be read for some other reason. -/
  | missingFile {abi : Abi} {stackPointer? : Option UInt64} {file : String} {reason : FileError} :
      c.Reads abi stackPointer? → Catalog.Has c.call →
      c.stateFile? = some file → files file = .error reason →
      Ends files c ⟨1, "", "Error: " ++ ("Failed to read " ++ file) ++ "\n\nCaused by:\n    " ++
        reason.message ++ "\n"⟩
  /-- The state file is no machine state, be a stack pointer given or not. -/
  | invalidState {abi : Abi} {stackPointer? : Option UInt64} {file text : String} {line : Nat}
      {cause : LineError} :
      c.Reads abi stackPointer? → Catalog.Has c.call →
      c.stateFile? = some file → files file = .ok text →
      Machine.read text = .error (.invalidState line cause) →
      Ends files c ⟨1, "", "Error: " ++ ("Failed to parse " ++ file) ++ "\n\nCaused by:\n    " ++
        (Error.invalidState line cause).message ++ "\n"⟩
  /-- The layout is shown. A stack pointer that is given replaces the one of the state. -/
  | shown {abi : Abi} {stackPointer? : Option UInt64} {m : Machine} {r : Report} :
      c.Reads abi stackPointer? → Loads files c m →
      Catalog.describe abi c.call
        (stackPointer?.elim m fun value => { m with stackPointer := value }) = .ok r →
      Ends files c ⟨0, (if c.json then r.json.pretty else r.display) ++ "\n", ""⟩

variable {c : LayoutCommand} {files : String → Except FileError String} {o : Outcome}

theorem mapM_read_of_rel {text? : Option String} {value? : Option UInt64}
    (h : Option.Rel (fun text value => Value.read text = .ok value) text? value?) :
    (text?.mapM fun text => (Value.read text).mapError
      (UsageError.invalidValue text .stackPointer)) = .ok value? := by
  cases h with
  | none => rfl
  | some hvalue =>
    rw [Option.mapM_some, hvalue]
    rfl

theorem run_of_reads (h : c.WellFormed) {abi : Abi} {stackPointer? : Option UInt64}
    (hreads : c.Reads abi stackPointer?) (files : String → Except FileError String) :
    run files c.arguments = answer files (.layout (c.request abi stackPointer?)) := by
  have hread : Request.read c.arguments = .ok (.layout (c.request abi stackPointer?)) := by
    rw [read_arguments h, hreads.abi, mapM_read_of_rel hreads.stackPointer]
    rfl
  rw [run, hread]

theorem Loads.machineOf_eq {m : Machine} (hloads : c.Loads files m) (abi : Abi)
    (stackPointer? : Option UInt64) :
    ∃ text?, readState files (c.request abi stackPointer?) = .ok text? ∧
      machineOf (c.request abi stackPointer?) text? =
        .ok (stackPointer?.elim m fun value => { m with stackPointer := value }) := by
  cases hloads with
  | zero hnone =>
    refine ⟨none, by simp only [readState, request, hnone], ?_⟩
    cases stackPointer? <;> rfl
  | @file file text m hfile htext hm =>
    refine ⟨some text, ?_, ?_⟩
    · simp only [readState, request, hfile, htext]
    · rw [machineOf, Machine.ofSources, hm]
      cases stackPointer? <;> rfl

theorem Ends.run_eq (h : c.WellFormed) (hends : c.Ends files o) :
    run files c.arguments = o := by
  cases hends with
  | unknownAbi hcause =>
    rw [run, read_arguments h, hcause]
    rfl
  | invalidStackPointer habi hvalue hcause =>
    rw [run, read_arguments h, habi, hvalue, Option.mapM_some, hcause]
    rfl
  | unknownCall hreads hcall =>
    rw [run_of_reads h hreads]
    exact answer_of_find?_eq_none (Catalog.find?_eq_none_iff.mpr hcall)
  | @missingFile abi stackPointer? file reason hreads hcall hfile hreason =>
    obtain ⟨call, hcall⟩ := hcall.exists_find?
    have hstate : readState files (c.request abi stackPointer?) =
        .error ⟨"Failed to read " ++ file, some reason.message⟩ := by
      simp only [readState, request, hfile, hreason]
    rw [run_of_reads h hreads, answer_of_readState_error hcall hstate]
    rfl
  | @invalidState abi stackPointer? file text line cause hreads hcall hfile htext hcause =>
    obtain ⟨call, hcall⟩ := hcall.exists_find?
    have hstate : readState files (c.request abi stackPointer?) = .ok (some text) := by
      simp only [readState, request, hfile, htext]
    have hmachine : machineOf (c.request abi stackPointer?) (some text) =
        .error ⟨"Failed to parse " ++ file, some (Error.invalidState line cause).message⟩ := by
      rw [machineOf, Machine.ofSources, hcause, request, hfile]
      rfl
    rw [run_of_reads h hreads, answer_of_machineOf_error hcall hstate hmachine]
    rfl
  | @shown abi stackPointer? m r hreads hloads hreport =>
    obtain ⟨text?, hstate, hmachine⟩ := hloads.machineOf_eq abi stackPointer?
    rw [run_of_reads h hreads, answer_of_describe hstate hmachine hreport]
    rfl

theorem exists_reads_or_error {abi : Abi} (habi : Abi.read c.abi = .ok abi) :
    (∃ stackPointer?, c.Reads abi stackPointer?) ∨
      ∃ value cause, c.stackPointer? = some value ∧ Value.read value = .error cause := by
  cases hvalue : c.stackPointer? with
  | none => exact .inl ⟨none, habi, hvalue ▸ .none⟩
  | some value =>
    cases hread : Value.read value with
    | error cause => exact .inr ⟨value, cause, rfl, hread⟩
    | ok address => exact .inl ⟨some address, habi, hvalue ▸ .some hread⟩

/-- Every command ends in one of the ways. -/
theorem exists_ends (files : String → Except FileError String) (c : LayoutCommand) :
    ∃ o, c.Ends files o := by
  cases habi : Abi.read c.abi with
  | error cause => exact ⟨_, .unknownAbi habi⟩
  | ok abi =>
  obtain ⟨stackPointer?, hreads⟩ | ⟨value, cause, hvalue, hcause⟩ := exists_reads_or_error habi
  swap
  · exact ⟨_, .invalidStackPointer habi hvalue hcause⟩
  by_cases hcall : Catalog.Has c.call
  swap
  · exact ⟨_, .unknownCall hreads hcall⟩
  -- No call of the catalog fails to be laid out, so it is enough that there is a machine.
  have hshown : ∀ m, Loads files c m → ∃ o, c.Ends files o := by
    intro m hloads
    obtain ⟨call, hfind⟩ := hcall.exists_find?
    obtain ⟨r, -, hr⟩ := Catalog.exists_describe hfind abi
      (stackPointer?.elim m fun value => { m with stackPointer := value })
    exact ⟨_, .shown hreads hloads hr⟩
  cases hfile : c.stateFile? with
  | none => exact hshown _ (.zero hfile)
  | some file =>
  cases htext : files file with
  | error reason => exact ⟨_, .missingFile hreads hcall hfile htext⟩
  | ok text =>
  cases hread : Machine.read text with
  | ok m => exact hshown m (.file hfile htext hread)
  | error e =>
    obtain ⟨line, cause, rfl⟩ := Machine.exists_invalidState_of_read hread
    exact ⟨_, .invalidState hreads hcall hfile htext hread⟩

/-- Output is written if the code is zero, and error messages otherwise. -/
theorem Ends.code (h : c.Ends files o) :
    o.code = 0 ∧ o.stderr = "" ∨ (o.code = 1 ∨ o.code = 2) ∧ o.stdout = "" := by
  cases h <;> simp

/-- Running a command that shows a layout ends in exactly one of the ways that `Ends` tells,
whatever files there are. There is output only if the code is zero, and nothing else if it is. -/
theorem run_arguments_eq_iff (files : String → Except FileError String) (hc : c.WellFormed) :
    (∀ o, run files c.arguments = o ↔ c.Ends files o) ∧
      ∀ o, run files c.arguments = o →
        o.code = 0 ∧ o.stderr = "" ∨ (o.code = 1 ∨ o.code = 2) ∧ o.stdout = "" := by
  have hends : ∀ o, run files c.arguments = o ↔ c.Ends files o := by
    intro o
    constructor
    · rintro rfl
      obtain ⟨o, ho⟩ := exists_ends files c
      rwa [ho.run_eq hc]
    · exact Ends.run_eq hc
  exact ⟨hends, fun o ho => ((hends o).mp ho).code⟩

/-- A stack pointer replaces the one of the state file, here so that the last argument needs no
padding. It does not hide that a state file cannot be read. -/
theorem run_arguments_state_with_stackPointer :
    let files : String → Except FileError String := fun name =>
      if name = "good.txt" then .ok "sp = 0"
      else if name = "bad.txt" then .ok "sp = nope" else .error .notFound
    let good : LayoutCommand := ⟨"mmap", "AAPCS32", some "good.txt", some "0x4", false⟩
    let bad : LayoutCommand := ⟨"mmap", "AAPCS32", some "bad.txt", some "0x4", false⟩
    good.WellFormed ∧ bad.WellFormed ∧
      run files good.arguments =
        ⟨0, "aapcs32: fn(GuestPtr, u32, i32, i32, i32, i64) -> GuestPtr\n" ++
          "  result   GuestPtr     -\n  arg 0    GuestPtr     regs r0\n" ++
          "  arg 1    u32          regs r1\n  arg 2    i32          regs r2\n" ++
          "  arg 3    i32          regs r3\n  arg 4    i32          stack +0..+4\n" ++
          "  arg 5    i64          stack +4..+12\ntotal: 4 registers, 12 stack bytes\n", ""⟩ ∧
      run files bad.arguments =
        ⟨1, "", "Error: Failed to parse bad.txt\n\nCaused by:\n" ++
          "    Invalid machine state at line 1: Invalid value 'nope', " ++
          "expected a decimal or 0x-prefixed hex number\n"⟩ := by
  intro files good bad
  have hwellFormed : good.WellFormed ∧ bad.WellFormed := by
    constructor
    all_goals exact {
      call := by decide
      abi := by decide
      stateFile := by rintro file ⟨⟩; decide
      stackPointer := by rintro value ⟨⟩; decide }
  have habi : Abi.read "AAPCS32" = .ok .aapcs32 := by decide
  have hvalue : Value.read "0x4" = .ok 4 := by decide
  have hread : Machine.read "sp = 0" = .ok ⟨.replicate registerCount 0, 0⟩ := by decide
  have hbad : Machine.read "sp = nope" = .error (.invalidState 1 (.invalidValue "nope")) := by
    decide
  have hgoodEnds : good.Ends files _ := .shown ⟨habi, .some hvalue⟩ (.file rfl rfl hread) rfl
  have hbadEnds : bad.Ends files _ :=
    .invalidState ⟨habi, .some hvalue⟩ (by decide) rfl rfl hbad
  refine ⟨hwellFormed.1, hwellFormed.2, ?_, ?_⟩
  · exact (((run_arguments_eq_iff files hwellFormed.1).1 _).mpr hgoodEnds).trans (by decide +kernel)
  · exact (((run_arguments_eq_iff files hwellFormed.2).1 _).mpr hbadEnds).trans (by decide +kernel)

end LayoutCommand

end CallLayout.CommandLine

import CallLayout.CommandLine.Request

/-!
# The arguments of a layout command

An option's value waits to be read until the next option comes or the arguments end, so what is
wrong with it is found late, and in the order of the options. The module follows a command that
shows a layout through its arguments: each option that is given is read before what stands behind
its value (`Draft.read_given`), and in the end the command asks for what its options say, the
convention's name being read before the stack pointer (`LayoutCommand.read_arguments`).
-/

namespace CallLayout.CommandLine

/-! ## Reading options -/

/-- The argument is no option. -/
def IsPlain (argument : String) : Prop :=
  argument.toList.head? ≠ some '-'

instance (argument : String) : Decidable (IsPlain argument) :=
  inferInstanceAs (Decidable (_ ≠ _))

theorem IsPlain.shape {argument : String} (h : IsPlain argument) :
    Shape.of argument = .plain := by
  rw [Shape.of]
  split
  next heq => simp [IsPlain, heq] at h
  next heq => simp [IsPlain, heq] at h
  next heq => simp [IsPlain, heq] at h
  next => rfl

namespace ValueOption

theorem shape_name (option : ValueOption) :
    Shape.of ("--" ++ option.name) = .long option.name none := by
  cases option <;> decide

theorem ofName?_name (option : ValueOption) : ofName? option.name = some option := by
  cases option <;> decide

/-- The arguments of an option that may be given. -/
def given (option : ValueOption) (value? : Option String) : List String :=
  value?.elim [] fun value => ["--" ++ option.name, value]

end ValueOption

namespace Draft

variable {d : Draft} {value : String}

theorem read_plain (d : Draft) (h : IsPlain value) (rest : List String) :
    d.read (value :: rest) = (d.takePlain value).bind fun d => d.read rest := by
  rw [Draft.read, h.shape]
  rfl

/-- The arguments are those of options, so that they begin with no value of the option before. -/
inductive AreOptions : List String → Prop where
  | nil : AreOptions []
  | value {option : ValueOption} {value : String} {rest : List String} :
      IsPlain value → AreOptions (("--" ++ option.name) :: value :: rest)
  | json {rest : List String} : AreOptions ("--json" :: rest)

theorem areOptions_given_append (option : ValueOption) {value? : Option String}
    {rest : List String} (hvalue : ∀ value ∈ value?, IsPlain value) (hrest : AreOptions rest) :
    AreOptions (option.given value? ++ rest) := by
  cases value? with
  | none => exact hrest
  | some value => exact .value (hvalue value rfl)

theorem settle_of_pending?_eq_none (h : d.pending? = none) : d.settle = .ok d := by
  rw [settle, h]

theorem pending?_of_assign {d' : Draft} {option : ValueOption}
    (h : d.assign option value = .ok d') : d'.pending? = d.pending? := by
  rw [assign] at h
  split at h
  · cases h
  · cases option <;> rw [readValue] at h <;> split at h <;> cases h <;> rfl

/-- Nothing is left to read of a draft that has been settled. -/
theorem settle_of_settle {d' : Draft} (h : d.settle = .ok d') : d'.settle = .ok d' := by
  refine settle_of_pending?_eq_none ?_
  rw [settle] at h
  split at h
  next hpending =>
    cases h
    exact hpending
  next => cases h
  next => exact pending?_of_assign h

/-- An option takes the argument behind it for its value, without reading it yet. -/
theorem read_value (d : Draft) (option : ValueOption) (h : IsPlain value) (rest : List String) :
    d.read (("--" ++ option.name) :: value :: rest) =
      d.settle.bind fun d => { d with pending? := some (option, some value) }.read rest := by
  rw [Draft.read, option.shape_name]
  simp only [option.ofName?_name, takeOption]
  cases d.settle with
  | error e => rfl
  | ok d => exact read_plain _ h rest

theorem read_json (d : Draft) (rest : List String) :
    d.read ("--json" :: rest) = d.takeJson.bind fun d => d.read rest := by
  rw [Draft.read, (by decide : Shape.of "--json" = .long "json" none)]
  rfl

/-- Options are read after the value of the option before them. -/
theorem read_areOptions {rest : List String} (h : AreOptions rest) :
    d.read rest = d.settle.bind fun d => d.read rest := by
  -- Each kind of option settles what is pending before anything else.
  cases hsettle : d.settle with
  | error e =>
    cases h with
    | nil =>
      rw [Draft.read, finish, hsettle]
      rfl
    | value hvalue =>
      rw [read_value _ _ hvalue, hsettle]
      rfl
    | json =>
      rw [read_json, takeJson, hsettle]
      rfl
  | ok d' =>
    have hsettle' := settle_of_settle hsettle
    cases h with
    | nil => simp only [Except.bind, Draft.read, finish, hsettle, hsettle']
    | value hvalue => simp only [Except.bind, read_value _ _ hvalue, hsettle, hsettle']
    | json => simp only [Except.bind, read_json, takeJson, hsettle, hsettle']

/-- The value of an option that comes for the first time is read before what is behind it. -/
theorem read_given (hpending : d.pending? = none) {option : ValueOption}
    (hhas : d.has option = false) (h : IsPlain value) {rest : List String}
    (hrest : AreOptions rest) :
    d.read (option.given (some value) ++ rest) =
      (d.readValue option value).bind fun d => d.read rest := by
  change d.read (("--" ++ option.name) :: value :: rest) = _
  rw [read_value _ _ h, settle_of_pending?_eq_none hpending]
  -- The value waits for the next option or the end, which settles it at once.
  refine (read_areOptions hrest).trans ?_
  change ({ d with pending? := none }.assign option value).bind _ = _
  rw [← hpending, assign, hhas, if_neg Bool.false_ne_true]

theorem read_abi (hpending : d.pending? = none) (habi : d.abi? = none) (h : IsPlain value)
    {rest : List String} (hrest : AreOptions rest) :
    d.read (ValueOption.abi.given (some value) ++ rest) =
      ((Abi.read value).mapError (.invalidValue value .abi)).bind fun abi =>
        { d with abi? := some abi }.read rest := by
  rw [read_given hpending (by rw [has, habi]; rfl) h hrest, readValue]
  cases Abi.read value <;> rfl

theorem read_state (hpending : d.pending? = none) (hnone : d.stateFile? = none)
    {file? : Option String} (hfile : ∀ file ∈ file?, IsPlain file ∧ file ≠ "")
    {rest : List String} (hrest : AreOptions rest) :
    d.read (ValueOption.state.given file? ++ rest) = { d with stateFile? := file? }.read rest := by
  cases file? with
  | none => exact congrArg (fun d : Draft => d.read rest) (by rw [← hnone])
  | some file =>
    obtain ⟨hplain, hne⟩ := hfile file rfl
    rw [read_given hpending (by rw [has, hnone]; rfl) hplain hrest, readValue, if_neg hne]
    rfl

theorem read_stackPointer (hpending : d.pending? = none) (hnone : d.stackPointer? = none)
    {value? : Option String} (hvalue : ∀ value ∈ value?, IsPlain value)
    {rest : List String} (hrest : AreOptions rest) :
    d.read (ValueOption.stackPointer.given value? ++ rest) =
      (value?.mapM fun value => (Value.read value).mapError (.invalidValue value .stackPointer)).bind
        fun stackPointer? => { d with stackPointer? := stackPointer? }.read rest := by
  cases value? with
  | none => exact congrArg (fun d : Draft => d.read rest) (by rw [← hnone])
  | some value =>
    rw [read_given hpending (by rw [has, hnone]; rfl) (hvalue value rfl) hrest, readValue,
      Option.mapM_some]
    cases Value.read value <;> rfl

end Draft

/-! ## Layout commands -/

/-- A command that shows a layout, with its arguments as they are written. -/
structure LayoutCommand where
  /-- The name of the guest call. -/
  call : String
  /-- The name of the convention. -/
  abi : String
  /-- The name of the state file, if it is given. -/
  stateFile? : Option String
  /-- The stack pointer, if it is given. -/
  stackPointer? : Option String
  /-- The layout is shown as JSON. -/
  json : Bool

namespace LayoutCommand

/-- The arguments of the command line. -/
def arguments (c : LayoutCommand) : List String :=
  "layout" :: c.call :: "--abi" :: c.abi ::
    (c.stateFile?.elim [] (fun file => ["--state", file]) ++
      (c.stackPointer?.elim [] (fun value => ["--sp", value]) ++
        if c.json then ["--json"] else []))

/-- The request of a command with a convention and a stack pointer that have been read. -/
def request (c : LayoutCommand) (abi : Abi) (stackPointer? : Option UInt64) : LayoutRequest where
  call := c.call
  abi := abi
  stateFile? := c.stateFile?
  stackPointer? := stackPointer?
  json := c.json

/-- No argument of the command can be taken for an option, and its state file has a name. -/
structure WellFormed (c : LayoutCommand) : Prop where
  call : IsPlain c.call
  abi : IsPlain c.abi
  stateFile : ∀ file ∈ c.stateFile?, IsPlain file ∧ file ≠ ""
  stackPointer : ∀ value ∈ c.stackPointer?, IsPlain value

/-- What the arguments ask for. The convention's name is read before the stack pointer, and what
the call and the state file are makes no difference. -/
theorem read_arguments {c : LayoutCommand} (h : c.WellFormed) :
    Request.read c.arguments = (do
      let abi ← (Abi.read c.abi).mapError (.invalidValue c.abi .abi)
      let stackPointer? ← c.stackPointer?.mapM fun value =>
        (Value.read value).mapError (.invalidValue value .stackPointer)
      .ok (.layout (c.request abi stackPointer?))) := by
  have hjson : Draft.AreOptions (if c.json then ["--json"] else []) := by
    split
    · exact .json
    · exact .nil
  -- Behind each option stand options again, so no value is taken for a call's name.
  have hstackPointer := Draft.areOptions_given_append .stackPointer h.stackPointer hjson
  have hstate := Draft.areOptions_given_append .state (fun file hf => (h.stateFile file hf).1)
    hstackPointer
  change Draft.empty.read (c.call :: (ValueOption.abi.given (some c.abi) ++
    (ValueOption.state.given c.stateFile? ++ (ValueOption.stackPointer.given c.stackPointer? ++
      if c.json then ["--json"] else [])))) = _
  rw [Draft.read_plain _ h.call]
  change Draft.read ⟨some c.call, none, none, none, false, none⟩ _ = _
  rw [Draft.read_abi rfl rfl h.abi hstate]
  refine congrArg (Except.bind _) (funext fun abi => ?_)
  rw [Draft.read_state rfl rfl h.stateFile hstackPointer,
    Draft.read_stackPointer rfl rfl h.stackPointer hjson]
  refine congrArg (Except.bind _) (funext fun stackPointer? => ?_)
  unfold request
  cases c.json <;> rfl

end LayoutCommand

end CallLayout.CommandLine

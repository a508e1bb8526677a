import CallLayout.Machine.Reader

/-!
# Sessions on a machine state

A session holds a machine state and a saved copy of it. Each command changes the state, or asks
about it; a command that fails changes nothing, and the session goes on.
-/

namespace CallLayout.Machine

/-- A command of a session on a machine state. -/
inductive Command where
  /-- Start again from the zero machine. -/
  | reset
  /-- Read a machine state and go on from it. -/
  | read (text : String)
  /-- Set the stack pointer. -/
  | setStackPointer (value : UInt64)
  /-- Set a general register. -/
  | setRegister (index : Nat) (value : UInt64)
  /-- Ask for a general register. -/
  | register (index : Nat)
  /-- Ask for the stack pointer. -/
  | stackPointer
  /-- Save a copy of the state. -/
  | save
  /-- Ask whether the state equals the saved copy. -/
  | same
  deriving DecidableEq, Repr

/-- What a command answers. -/
inductive Answer where
  /-- The state after the command. -/
  | state (m : Machine)
  /-- A value asked for; a register that does not exist has none. -/
  | value (value? : Option UInt64)
  /-- Whether the state equals the saved copy. -/
  | same (equal : Bool)
  deriving DecidableEq, Repr

/-- A machine state and its saved copy. -/
structure Session where
  /-- The state that commands work on. -/
  current : Machine
  /-- The saved copy. -/
  saved : Machine
  deriving DecidableEq, Repr

namespace Session

/-- A session starts from the zero machine, which is also the saved copy. -/
def start : Session :=
  { current := zero, saved := zero }

/-- The session after its state has been replaced, and the answer that shows the new state. -/
def replace (s : Session) (m : Machine) : Answer × Session :=
  (.state m, { s with current := m })

/-- The answer to a command and the session after it. -/
def step (s : Session) : Command → Except Error (Answer × Session)
  | .reset => .ok (s.replace zero)
  | .read text => (Machine.read text).map s.replace
  | .setStackPointer value => .ok (s.replace (s.current.setStackPointer value))
  | .setRegister index value => (s.current.setRegister? index value).map s.replace
  | .register index => .ok (.value (s.current.register? index), s)
  | .stackPointer => .ok (.value (some s.current.stackPointer), s)
  | .save => .ok (.state s.current, { s with saved := s.current })
  | .same => .ok (.same (s.current = s.saved), s)

/-- The session after a command; one that fails leaves it as it was. -/
def next (s : Session) (c : Command) : Session :=
  match s.step c with
  | .ok (_, s') => s'
  | .error _ => s

/-- The session after some commands. -/
def after (s : Session) (cs : List Command) : Session :=
  cs.foldl next s

/-- The answers to some commands, in order. -/
def run (s : Session) : List Command → List (Except Error Answer)
  | [] => []
  | c :: cs => (s.step c).map Prod.fst :: (s.next c).run cs

end Session

end CallLayout.Machine

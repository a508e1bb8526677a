import CallLayout.Convention.Observer

/-!
# Placement sessions

A session holds a position of a convention and a saved copy of it, on one machine. Each command
places values from the position, starts it anew, or asks about it. The session counts how often
the stack pointer has been read. It ends with the first overflow.
-/

namespace CallLayout.Convention

/-- A command of a placement session. -/
inductive Command (R A : Type) where
  /-- Start anew on the same machine. -/
  | start
  /-- Place a result, and write it down if it is observed. -/
  | result (observed : Bool) (type : R)
  /-- Place one argument. -/
  | argument (type : A)
  /-- Place a call, and write its steps down if it is observed. -/
  | call (observed : Bool) (signature : Signature R A)
  /-- Place the arguments of a call, without its result. -/
  | arguments (signature : Signature R A)
  /-- Place the arguments of a call and write them down, numbered from their count. A call has few
  arguments, so the numbers are words. -/
  | furtherArguments (signature : Signature R A)
  /-- Save a copy of the position. -/
  | save
  /-- Go back to the saved copy. -/
  | restore
  /-- Ask whether the position equals the saved copy. -/
  | same
  /-- Ask for the name of an argument register. -/
  | name (index : Nat)
  /-- Ask for the text of the position. -/
  | describe
  deriving DecidableEq, Repr

/-- What a command answers besides the position. -/
inductive Answer where
  /-- Nothing. -/
  | none
  /-- The observed steps of a single placement. -/
  | log (entries : List LogEntry)
  /-- The number of arguments of a call and the observed steps. -/
  | call (count : Nat) (entries : List LogEntry)
  /-- Whether the position equals the saved copy. -/
  | same (equal : Bool)
  /-- The name of an argument register, if it has one. -/
  | name (name? : Option String)
  /-- The text of the position. -/
  | text (text : String)
  deriving DecidableEq, Repr

/-- A position, its saved copy and the number of times the stack pointer has been read. -/
structure Session (P : Type) where
  /-- The position that commands work on. -/
  position : P
  /-- The saved copy. -/
  saved : P
  /-- How often the stack pointer has been read. -/
  reads : Nat
  deriving DecidableEq, Repr

/-- What a command shows: the session after it and its answer. -/
structure Entry (P : Type) where
  /-- The session after the command. -/
  session : Session P
  /-- The answer. -/
  answer : Answer
  deriving DecidableEq, Repr

namespace Session

variable {P R A : Type} [DecidableEq P] [GuestType R] [GuestType A]

/-- A session starts from a new position, which is also the saved copy. -/
def start (c : Convention P R A) (m : Machine) : Session P :=
  { position := c.start m, saved := c.start m, reads := c.seed.reads }

/-- The session with another position. -/
def moveTo (s : Session P) (p : P) : Session P :=
  { s with position := p }

/-- The answer to a command and the session after it. -/
def step (c : Convention P R A) (m : Machine) (s : Session P) :
    Command R A → Except Overflow (Entry P)
  | .start =>
    .ok ⟨{ s with position := c.start m, reads := s.reads + c.seed.reads }, .none⟩
  | .result false type => do
    let p ← c.result m.registers type s.position
    .ok ⟨s.moveTo p, .log []⟩
  | .result true type => do
    let (p, log) ← c.watchResult .log m.registers type (s.position, [])
    .ok ⟨s.moveTo p, .log log⟩
  | .argument type => do
    let p ← c.argument m.registers type s.position
    .ok ⟨s.moveTo p, .log []⟩
  | .call false signature => do
    let p ← c.placeCall m.registers signature s.position
    .ok ⟨s.moveTo p, .call signature.arguments.length []⟩
  | .call true signature => do
    let (p, log) ← c.watchCall .log m.registers signature (s.position, [])
    .ok ⟨s.moveTo p, .call signature.arguments.length log⟩
  | .arguments signature => do
    let p ← c.placeArguments m.registers signature.arguments s.position
    .ok ⟨s.moveTo p, .call signature.arguments.length []⟩
  | .furtherArguments signature => do
    let count := signature.arguments.length
    let (p, log) ← c.watchNumbered .log m.registers count signature.arguments (s.position, [])
    .ok ⟨s.moveTo p, .call count log⟩
  | .save => .ok ⟨{ s with saved := s.position }, .none⟩
  | .restore => .ok ⟨s.moveTo s.saved, .none⟩
  | .same => .ok ⟨s, .same (s.position = s.saved)⟩
  | .name index => .ok ⟨s, .name (c.registerName? index)⟩
  | .describe => .ok ⟨s, .text (c.positionText s.position)⟩

/-- What the commands show, in order, up to the first overflow. -/
def run (c : Convention P R A) (m : Machine) (s : Session P) :
    List (Command R A) → List (Except Overflow (Entry P))
  | [] => []
  | command :: commands =>
    match s.step c m command with
    | .ok entry => .ok entry :: run c m entry.session commands
    | .error cause => [.error cause]

end Session

end CallLayout.Convention

import CallLayout.Convention.Session
import CallLayout.Proofs.Composition
import Mathlib.Data.List.Induction

/-!
# Histories of sessions

What a session has placed is decided by its commands alone. Its *history* holds the values that
were placed since the position was started, and those of the saved copy. Placing appends to the
history, starting anew clears it, and saving and restoring copy it.

The session *follows* its commands (`Session.Follows`): its position is reached by placing its
history from the start, the saved copy likewise, and the stack pointer has been read once for each
start, by a convention that reads it. Every command keeps this (`Follows.step`), so it holds
wherever a run arrives, and the answer to each command that is reached is that of a session which
follows the commands before it (`Follows.run`). If no command can overflow from such a session, all
commands are answered (`run_start_answered`).
-/

namespace CallLayout.Convention

variable {P R A σ : Type}

/-- The values that a command places. -/
def Command.items : Command R A → List (Item R A)
  | .result _ type => [.result type]
  | .argument type => [.argument type]
  | .call _ signature => signature.items
  | .arguments signature | .furtherArguments signature => signature.arguments.map .argument
  | .start | .save | .restore | .same | .name _ | .describe => []

/-! ## Histories -/

/-- The values placed since the position and its saved copy were started. -/
structure History (R A : Type) where
  /-- The values of the position. -/
  current : List (Item R A)
  /-- The values of the saved copy. -/
  saved : List (Item R A)

namespace History

/-- The history after a command. -/
def next (h : History R A) : Command R A → History R A
  | .start => { h with current := [] }
  | .save => { h with saved := h.current }
  | .restore => { h with current := h.saved }
  | command => { h with current := h.current ++ command.items }

/-- The history of a new session after some commands. -/
def of (commands : List (Command R A)) : History R A := commands.foldl next ⟨[], []⟩

theorem of_concat (commands : List (Command R A)) (command : Command R A) :
    of (commands ++ [command]) = (of commands).next command := by
  simp [of]

/-- A command adds nothing to a history but the values that it places. -/
theorem next_sublist {h : History R A} {items : List (Item R A)}
    (hcurrent : h.current.Sublist items) (hsaved : h.saved.Sublist items)
    (command : Command R A) :
    (h.next command).current.Sublist (items ++ command.items) ∧
      (h.next command).saved.Sublist (items ++ command.items) := by
  have hmore : items.Sublist (items ++ command.items) := List.sublist_append_left _ _
  refine ⟨?_, ?_⟩
  · cases command with
    | start => exact List.nil_sublist _
    | save => exact hcurrent.trans hmore
    | restore => exact hsaved.trans hmore
    | _ => exact hcurrent.append_right _
  · cases command with
    | save => exact hcurrent.trans hmore
    | _ => exact hsaved.trans hmore

/-- A history holds nothing but the values that the commands place. -/
theorem of_sublist (commands : List (Command R A)) :
    (of commands).current.Sublist (commands.flatMap Command.items) ∧
      (of commands).saved.Sublist (commands.flatMap Command.items) := by
  induction commands using List.reverseRecOn with
  | nil => exact ⟨List.nil_sublist _, List.nil_sublist _⟩
  | append_singleton commands command ih =>
    rw [of_concat, List.flatMap_append, List.flatMap_singleton]
    exact next_sublist ih.1 ih.2 command

end History

/-- How many of the commands start anew. -/
def startCount (commands : List (Command R A)) : ℕ :=
  commands.countP fun command => command matches .start

theorem startCount_append (commands rest : List (Command R A)) :
    startCount (commands ++ rest) = startCount commands + startCount rest :=
  List.countP_append

/-! ## One command -/

theorem map_eq_error_iff {α β : Type} (f : α → β) {x : Except Overflow α} {cause : Overflow} :
    x.map f = .error cause ↔ x = .error cause := by
  cases x <;> simp [Except.map]

theorem map_eq_ok_iff {α β : Type} (f : α → β) {x : Except Overflow α} {b : β} :
    x.map f = .ok b ↔ ∃ a, x = .ok a ∧ f a = b := by
  cases x <;> simp [Except.map]

namespace Session

/-- The session after a command, without the answer. -/
def next (c : Convention P R A) (m : Machine) (s : Session P) :
    Command R A → Except Overflow (Session P)
  | .start => .ok { s with position := c.start m, reads := s.reads + c.seed.reads }
  | .save => .ok { s with saved := s.position }
  | .restore => .ok (s.moveTo s.saved)
  | command => (c.placeItems m.registers command.items s.position).map s.moveTo

variable {c : Convention P R A} {m : Machine} {s : Session P}

/-- A command that places values leads to the session at the position reached. -/
theorem map_session_bind (x : Except Overflow P) (answer : Answer) :
    (x >>= fun p => .ok ⟨s.moveTo p, answer⟩ : Except Overflow (Entry P)).map Entry.session =
      x.map s.moveTo := by
  cases x <;> rfl

theorem map_session_bind_observed (x : Except Overflow (P × σ)) (answer : σ → Answer) :
    (x >>= fun (p, t) => .ok ⟨s.moveTo p, answer t⟩ : Except Overflow (Entry P)).map
        Entry.session =
      (x.map Prod.fst).map s.moveTo := by
  cases x <;> rfl

variable [DecidableEq P] [GuestType R] [GuestType A]

/-- Observers and answers aside, a command starts, saves, restores, or places its values. -/
theorem map_session_step (command : Command R A) :
    (s.step c m command).map Entry.session = s.next c m command := by
  cases command with
  | start | save | restore | same | name index | describe => rfl
  | result observed type =>
    have hplace : c.result m.registers type s.position =
        c.placeItems m.registers [.result type] s.position :=
      (c.placeItems_singleton m.registers (.result type) s.position).symm
    cases observed with
    | false => exact (map_session_bind _ _).trans (congrArg _ hplace)
    | true =>
      refine (map_session_bind_observed _ _).trans (congrArg _ ?_)
      exact (map_fst_watchResult .log type _).trans hplace
  | argument type =>
    refine (map_session_bind _ _).trans (congrArg _ ?_)
    exact (c.placeItems_singleton m.registers (.argument type) s.position).symm
  | call observed signature =>
    have hplace := c.placeCall_eq_placeItems m.registers signature s.position
    cases observed with
    | false => exact (map_session_bind _ _).trans (congrArg _ hplace)
    | true =>
      refine (map_session_bind_observed _ _).trans (congrArg _ ?_)
      exact (map_fst_watchCall .log signature _).trans hplace
  | arguments signature =>
    refine (map_session_bind _ _).trans (congrArg _ ?_)
    exact c.placeArguments_eq_placeItems m.registers signature.arguments s.position
  | furtherArguments signature =>
    refine (map_session_bind_observed _ _).trans (congrArg _ ?_)
    rw [map_fst_watchNumbered]
    exact c.placeArguments_eq_placeItems m.registers signature.arguments s.position

theorem next_eq_ok {command : Command R A} {entry : Entry P}
    (h : s.step c m command = .ok entry) : s.next c m command = .ok entry.session := by
  rw [← map_session_step, h]
  rfl

/-- A command that leads to a session is answered. -/
theorem exists_step_of_next {command : Command R A} {t : Session P}
    (h : s.next c m command = .ok t) :
    ∃ entry, s.step c m command = .ok entry ∧ entry.session = t := by
  rw [← map_session_step] at h
  exact (map_eq_ok_iff Entry.session).mp h

/-- A command overflows where placing its values does. -/
theorem step_eq_error_iff {command : Command R A} {cause : Overflow} :
    s.step c m command = .error cause ↔
      c.placeItems m.registers command.items s.position = .error cause := by
  rw [← map_eq_error_iff Entry.session, map_session_step]
  cases command with
  | start | save | restore | same | name index | describe => exact ⟨nofun, nofun⟩
  | _ => exact map_eq_error_iff s.moveTo

end Session

/-! ## Sessions and their histories -/

/-- Placing the values of the history leads to the position of the session and to its saved copy,
and the stack pointer has been read for the new session and for each start after it. -/
structure Session.Follows (c : Convention P R A) (m : Machine) (h : History R A) (starts : ℕ)
    (s : Session P) : Prop where
  position : c.placeItems m.registers h.current (c.start m) = .ok s.position
  saved : c.placeItems m.registers h.saved (c.start m) = .ok s.saved
  reads : s.reads = c.seed.reads * (1 + starts)

namespace Session

theorem follows_start (c : Convention P R A) (m : Machine) :
    (start c m).Follows c m (History.of []) 0 :=
  ⟨rfl, rfl, (Nat.mul_one _).symm⟩

variable {c : Convention P R A} {m : Machine} {s : Session P} {h : History R A} {starts : ℕ}

/-- A session that goes on placing values goes on with its history. -/
theorem Follows.place (hs : s.Follows c m h starts) {items : List (Item R A)} {t : Session P}
    (hplace : (c.placeItems m.registers items s.position).map s.moveTo = .ok t) :
    t.Follows c m { h with current := h.current ++ items } starts := by
  obtain ⟨p, hitems, rfl⟩ := (map_eq_ok_iff s.moveTo).mp hplace
  refine ⟨?_, hs.saved, hs.reads⟩
  rw [placeItems_append, hs.position]
  exact hitems

/-- Every command takes the history along. -/
theorem Follows.next (hs : s.Follows c m h starts) {command : Command R A} {t : Session P}
    (hnext : s.next c m command = .ok t) :
    t.Follows c m (h.next command) (starts + startCount [command]) := by
  cases command with
  | start =>
    cases hnext
    refine ⟨rfl, hs.saved, ?_⟩
    change s.reads + c.seed.reads = c.seed.reads * (1 + (starts + 1))
    rw [← Nat.add_assoc, Nat.mul_succ, hs.reads]
  | save =>
    cases hnext
    exact ⟨hs.position, hs.position, hs.reads⟩
  | restore =>
    cases hnext
    exact ⟨hs.saved, hs.saved, hs.reads⟩
  | _ => exact hs.place hnext

variable [DecidableEq P] [GuestType R] [GuestType A]

theorem Follows.step (hs : s.Follows c m h starts) {command : Command R A} {entry : Entry P}
    (hstep : s.step c m command = .ok entry) :
    entry.session.Follows c m (h.next command) (starts + startCount [command]) :=
  hs.next (next_eq_ok hstep)

/-! ## Runs -/

/-- A run begins with the answer to the first command. -/
theorem head?_run (command : Command R A) (commands : List (Command R A)) :
    (s.run c m (command :: commands)).head? = some (s.step c m command) := by
  rw [run]
  split
  next hstep => rw [hstep, List.head?_cons]
  next hstep => rw [hstep, List.head?_cons]

theorem run_cons_of_ok {command : Command R A} {entry : Entry P}
    (hstep : s.step c m command = .ok entry) (commands : List (Command R A)) :
    s.run c m (command :: commands) = .ok entry :: entry.session.run c m commands := by
  rw [run, hstep]

/-- If the commands before it are answered, a command is reached, and it meets a session that
follows them. -/
theorem Follows.run (hs : s.Follows c m h starts) {commands : List (Command R A)} {k : ℕ}
    (hk : k < commands.length)
    (hreached : ∀ j < k, ∃ entry, (s.run c m commands)[j]? = some (.ok entry)) :
    ∃ t : Session P,
      t.Follows c m ((commands.take k).foldl History.next h)
          (starts + startCount (commands.take k)) ∧
        (s.run c m commands)[k]? = some (t.step c m commands[k]) := by
  induction commands generalizing s h starts k with
  | nil => exact absurd hk (Nat.not_lt_zero k)
  | cons command commands ih =>
    cases k with
    | zero => exact ⟨s, hs, List.head?_eq_getElem?.symm.trans (head?_run command commands)⟩
    | succ k =>
      obtain ⟨entry, hentry⟩ := hreached 0 (Nat.succ_pos k)
      rw [← List.head?_eq_getElem?, head?_run] at hentry
      have hstep := Option.some.inj hentry
      rw [run_cons_of_ok hstep] at hreached ⊢
      -- The rest of the run starts from the session after the first command.
      obtain ⟨t, hfollows, hanswer⟩ := ih (hs.step hstep) (Nat.lt_of_succ_lt_succ hk)
        fun j hj => hreached (j + 1) (Nat.succ_lt_succ hj)
      refine ⟨t, ?_, hanswer⟩
      rw [Nat.add_assoc, ← startCount_append] at hfollows
      exact hfollows

/-- In the run of a new session, a command that is reached meets a session that follows all the
commands before it. -/
theorem run_start_reached (c : Convention P R A) (m : Machine) {commands : List (Command R A)}
    {k : ℕ} (hk : k < commands.length)
    (hreached : ∀ j < k, ∃ entry, ((start c m).run c m commands)[j]? = some (.ok entry)) :
    ∃ t : Session P,
      t.Follows c m (History.of (commands.take k)) (startCount (commands.take k)) ∧
        ((start c m).run c m commands)[k]? = some (t.step c m commands[k]) := by
  have hrun := (follows_start c m).run hk hreached
  rwa [Nat.zero_add] at hrun

/-- A command that is answered takes the session to one that follows one command more. -/
theorem Follows.step_take {commands : List (Command R A)} {k : ℕ} (hk : k < commands.length)
    (hs : s.Follows c m (History.of (commands.take k)) (startCount (commands.take k)))
    {entry : Entry P} (hstep : s.step c m commands[k] = .ok entry) :
    entry.session.Follows c m (History.of (commands.take (k + 1)))
      (startCount (commands.take (k + 1))) := by
  rw [List.take_succ_eq_append_getElem hk, History.of_concat, startCount_append]
  exact hs.step hstep

/-- If no command overflows from a session that follows the ones before it, all commands of a new
session are answered. -/
theorem run_start_answered (c : Convention P R A) (m : Machine) {commands : List (Command R A)}
    (hanswered : ∀ k (hk : k < commands.length) (s : Session P),
      s.Follows c m (History.of (commands.take k)) (startCount (commands.take k)) →
        ∃ entry, s.step c m commands[k] = .ok entry)
    {k : ℕ} (hk : k < commands.length) :
    ∃ entry, ((start c m).run c m commands)[k]? = some (.ok entry) ∧
      entry.session.Follows c m (History.of (commands.take (k + 1)))
        (startCount (commands.take (k + 1))) := by
  induction k using Nat.strong_induction_on with
  | h k ih =>
    have hreached : ∀ j < k, ∃ entry, ((start c m).run c m commands)[j]? = some (.ok entry) := by
      intro j hj
      obtain ⟨entry, hentry, -⟩ := ih j hj (hj.trans hk)
      exact ⟨entry, hentry⟩
    obtain ⟨s, hs, hanswer⟩ := run_start_reached c m hk hreached
    obtain ⟨entry, hstep⟩ := hanswered k hk s hs
    exact ⟨entry, hanswer.trans (congrArg some hstep), hs.step_take hk hstep⟩

end Session

end CallLayout.Convention

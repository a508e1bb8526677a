import CallLayout.Convention.Stack
import CallLayout.Proofs.Counting
import CallLayout.Proofs.Session
import Mathlib.Tactic.IntervalCases

/-!
# Sessions of the stack demonstration

The stack convention adds sizes to the stack pointer with a checked sum, so it counts in the sense
of `Convention.Counts`, from the stack pointer on. Together with the histories of sessions this
says where each position of a session is: at the stack pointer and the exact sizes of its history,
however often it was saved, restored or started anew in between (`Exact`). It also says where a
session ends, namely at the first value that would go over the last address (`Overflows`), which
may be in the middle of a call. The main result is `session_exact`.
-/

namespace CallLayout.Stack

open Convention (Command History Session startCount checked)

/-- The exact size of a value in bytes. -/
def size : Item Result Signed → ℕ
  | .result .unit => 0
  | .result .i64 => 8
  | .argument .i32 => 4
  | .argument .i64 => 8

/-- The exact size of some values. -/
def total (items : List (Item Result Signed)) : ℕ := (items.map size).sum

/-- The position at an address. -/
def Position.ofOffset (n : ℕ) : Position := ⟨UInt64.ofNat n⟩

theorem Position.toNat_ofOffset {n : ℕ} (h : n < 2 ^ 64) : (ofOffset n).offset.toNat = n :=
  UInt64.toNat_ofNat_of_lt' h

/-- Stacking some bytes is a checked sum. -/
theorem Position.push_eq_map_add (p : Position) (bytes : UInt64) :
    p.push bytes = (Word.add p.offset bytes).map Position.mk := by
  rw [push]
  cases Word.add p.offset bytes <;> rfl

/-- Placing a value adds its size, with a check. -/
theorem counts_size (g : Registers) : stack.Counts g .ofOffset size where
  place {n} hn item := by
    have hpush (bytes : UInt64) :
        (Position.ofOffset n).push bytes = checked .ofOffset (n + bytes.toNat) :=
      (Position.push_eq_map_add _ bytes).trans (Convention.map_add_ofNat Position.mk hn bytes)
    match item with
    | .result .unit | .result .i64 | .argument .i32 | .argument .i64 => exact hpush _

theorem start_eq_ofOffset (m : Machine) :
    stack.start m = .ofOffset m.stackPointer.toNat := by
  rw [Position.ofOffset, UInt64.ofNat_toNat]
  rfl

/-- From the start, values are placed exactly if they end within a word. -/
theorem placeItems_start (m : Machine) (items : List (Item Result Signed)) :
    stack.placeItems m.registers items (stack.start m) =
      checked .ofOffset (m.stackPointer.toNat + total items) := by
  rw [start_eq_ofOffset]
  exact (counts_size m.registers).placeItems m.stackPointer.toNat_lt items

/-- A position that some values lead to is at the exact address behind them, which fits a word. -/
theorem eq_ofOffset_of_placeItems_start {m : Machine} {items : List (Item Result Signed)}
    {p : Position} (h : stack.placeItems m.registers items (stack.start m) = .ok p) :
    m.stackPointer.toNat + total items < 2 ^ 64 ∧
      p = .ofOffset (m.stackPointer.toNat + total items) := by
  rw [placeItems_start, checked] at h
  split at h
  next hfits => exact ⟨hfits, (Except.ok.inj h).symm⟩
  next => cases h

/-! ## Sessions -/

/-- After the commands, the session is where the exact sizes of its history lead, and has read the
stack pointer once for itself and once for each start. -/
structure Exact (m : Machine) (commands : List (Command Result Signed))
    (s : Session Position) : Prop where
  position : s.position.offset.toNat =
    m.stackPointer.toNat + total (History.of commands).current
  saved : s.saved.offset.toNat = m.stackPointer.toNat + total (History.of commands).saved
  reads : s.reads = 1 + startCount commands

/-- One of the values that the command places after the others, taken in order, is the first whose
end does not fit a word. -/
def Overflows (m : Machine) (commands : List (Command Result Signed))
    (command : Command Result Signed) : Prop :=
  ∃ placed item rest, command.items = placed ++ item :: rest ∧
    m.stackPointer.toNat + total ((History.of commands).current ++ placed) < 2 ^ 64 ∧
    2 ^ 64 ≤ m.stackPointer.toNat + total ((History.of commands).current ++ placed) + size item

variable {m : Machine} {commands : List (Command Result Signed)} {s : Session Position}

theorem Exact.of_follows
    (hs : s.Follows stack m (History.of commands) (startCount commands)) :
    Exact m commands s := by
  obtain ⟨hposition, hp⟩ := eq_ofOffset_of_placeItems_start hs.position
  obtain ⟨hsaved, hq⟩ := eq_ofOffset_of_placeItems_start hs.saved
  refine ⟨?_, ?_, ?_⟩
  · rw [hp, Position.toNat_ofOffset hposition]
  · rw [hq, Position.toNat_ofOffset hsaved]
  · exact hs.reads.trans (Nat.one_mul _)

theorem total_append (items rest : List (Item Result Signed)) :
    total (items ++ rest) = total items + total rest := by
  simp [total]

/-- A command overflows exactly if one of its values is the first to go over. -/
theorem step_eq_error_iff
    (hs : s.Follows stack m (History.of commands) (startCount commands))
    (command : Command Result Signed) (cause : Overflow) :
    s.step stack m command = .error cause ↔
      cause = .addition ∧ Overflows m commands command := by
  obtain ⟨hfits, hposition⟩ := eq_ofOffset_of_placeItems_start hs.position
  rw [Session.step_eq_error_iff, hposition, (counts_size m.registers).placeItems hfits,
    Convention.checked_eq_error_iff, ← Convention.exists_overflowing_iff hfits]
  simp only [Overflows, total_append, ← Nat.add_assoc]
  rfl

/-- Sessions of the stack convention are exact, on every machine. A new session is at the stack
pointer and has read it once. In the run of any commands, one that is reached overflows exactly if
one of its values goes over, and with the overflow of a sum. If none does, it is answered, and the
session is again at the stack pointer and the exact size of what has been placed since the position
was started, and has read the stack pointer once more for each start. -/
theorem session_exact (m : Machine) (commands : List (Command Result Signed)) :
    let answers := (Session.start stack m).run stack m commands
    Exact m [] (Session.start stack m) ∧
    ∀ k (hk : k < commands.length), (∀ j < k, ∃ entry, answers[j]? = some (.ok entry)) →
      (∀ cause, answers[k]? = some (.error cause) ↔
        cause = .addition ∧ Overflows m (commands.take k) commands[k]) ∧
      (¬ Overflows m (commands.take k) commands[k] → ∃ entry,
        answers[k]? = some (.ok entry) ∧ Exact m (commands.take (k + 1)) entry.session) := by
  intro answers
  refine ⟨.of_follows (Session.follows_start stack m), fun k hk hreached => ?_⟩
  obtain ⟨s, hs, hanswer⟩ := Session.run_start_reached stack m hk hreached
  have herror := step_eq_error_iff hs commands[k]
  refine ⟨fun cause => ?_, fun hfits => ?_⟩
  · rw [hanswer, Option.some_inj]
    exact herror cause
  · cases hstep : s.step stack m commands[k] with
    | error cause => exact absurd ((herror cause).mp hstep).2 hfits
    | ok entry =>
      refine ⟨entry, hanswer.trans (congrArg some hstep), .of_follows ?_⟩
      have hfollows := hs.step hstep
      rwa [← History.of_concat, ← Convention.startCount_append, ← List.take_succ_eq_append_getElem]
        at hfollows

/-- Twenty bytes below the end of the addresses, the position is saved behind eight of them, and
both a call and a new start are undone by going back to it. Of the next call one argument fits
there, and the second does not. -/
theorem session_exact_interrupted_call :
    let m := Machine.zero.setStackPointer 0xffffffffffffffec
    let commands : List (Command Result Signed) :=
      [.argument .i64, .save, .call false ⟨.unit, [.i64]⟩, .restore, .start, .restore,
        .call true ⟨.unit, [.i64, .i64, .i32]⟩]
    let answers := (Session.start stack m).run stack m commands
    (∃ entry, answers[5]? = some (.ok entry) ∧
      entry.session.position.offset.toNat = 2 ^ 64 - 12 ∧ entry.session.reads = 2) ∧
    answers[6]? = some (.error .addition) := by
  intro m commands answers
  obtain ⟨-, hsteps⟩ := session_exact m commands
  have hreached : ∀ j < 6, ∃ entry, answers[j]? = some (.ok entry) := by
    intro j hj
    interval_cases j <;> exact ⟨_, rfl⟩
  constructor
  · obtain ⟨-, hanswered⟩ := hsteps 5 (by decide) fun j hj => hreached j (Nat.lt_succ_of_lt hj)
    have hfits : ¬ Overflows m (commands.take 5) commands[5] := by
      rintro ⟨placed, item, rest, hitems, -⟩
      exact List.append_ne_nil_of_right_ne_nil placed (List.cons_ne_nil item rest) hitems.symm
    obtain ⟨entry, hanswer, hexact⟩ := hanswered hfits
    exact ⟨entry, hanswer, hexact.position.trans (by decide), hexact.reads.trans (by decide)⟩
  · obtain ⟨hoverflow, -⟩ := hsteps 6 (by decide) hreached
    refine (hoverflow .addition).mpr ⟨rfl, [.result .unit, .argument .i64], .argument .i64, ?_⟩
    exact ⟨[.argument .i32], rfl, by decide, by decide⟩

end CallLayout.Stack

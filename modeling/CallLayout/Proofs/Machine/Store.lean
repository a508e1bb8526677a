import CallLayout.Machine.Session
import CallLayout.Proofs.Machine.FirstError

/-!
# Sessions as stores

A session on a machine state is a store with one cell for each target. Its history, the commands
given so far, decides all that it holds: a cell has the value that was last written to it, and the
saved copy is the state at the last save.

The module introduces:

* `Writes`: the command writes a value to a target, in terms of the grammar of the texts;
* `LastWritten` and `LastSaved`: what a history leaves in a cell and in the saved copy;
* `Session.StoreOf`: the session is the store that a history leaves behind.

A command does to a cell what it writes there and nothing else (`get_next_of_writes`,
`get_next_of_not_writes`), from which the laws of a whole history follow by induction over it.
-/

namespace CallLayout.Machine

/-! ## What is written -/

/-- After some entries a target has one value only. -/
theorem LastAssigned.unique {entries : List (List Char)} {target : Target} {initial v w : UInt64}
    (hv : LastAssigned entries target initial v) (hw : LastAssigned entries target initial w) :
    v = w := by
  rcases hv with ⟨before, entry, after, rfl, hentry, hafter⟩ | ⟨hnone, rfl⟩
  · rcases hw with ⟨before', entry', after', heq, hentry', hafter'⟩ | ⟨hnone, -⟩
    · -- Of two last entries neither can stand behind the other.
      rcases List.append_eq_append_iff.mp heq with ⟨mid, -, hmid⟩ | ⟨mid, -, hmid⟩
      · cases mid with
        | nil =>
          cases hmid
          exact congrArg Assignment.value (hentry.unique hentry')
        | cons e mid =>
          cases hmid
          exact absurd hentry' (hafter entry' (by simp) w)
      · cases mid with
        | nil =>
          cases hmid
          exact congrArg Assignment.value (hentry.unique hentry')
        | cons e mid =>
          cases hmid
          exact absurd hentry (hafter' entry (by simp) v)
    · exact absurd hentry (hnone entry (by simp) v)
  · rcases hw with ⟨before', entry', after', rfl, hentry', -⟩ | ⟨-, rfl⟩
    · exact absurd hentry' (hnone entry' (by simp) w)
    · rfl

/-- The command writes a value to a target. A reset and a text that can be read write to every
target; a target that the text does not assign to gets zero. -/
inductive Writes : Command → Target → UInt64 → Prop where
  | reset {target : Target} : Writes .reset target 0
  | read {text : String} {target : Target} {value : UInt64} :
      (∀ entry ∈ entries text, ∃ a, Assigns entry a) →
      LastAssigned (entries text) target 0 value → Writes (.read text) target value
  | setStackPointer {value : UInt64} : Writes (.setStackPointer value) .stackPointer value
  | setRegister {index : Fin registerCount} {value : UInt64} :
      Writes (.setRegister index value) (.register index) value

/-- A text writes what its machine holds. -/
theorem writes_read_iff {text : String} {target : Target} {value : UInt64} :
    Writes (.read text) target value ↔ ∃ m, read text = .ok m ∧ m.get target = value := by
  rw [read_eq_readFrom]
  constructor
  · rintro (_ | ⟨hassigns, hlast⟩)
    obtain ⟨m, hm⟩ := exists_readFrom_eq_ok 1 zero hassigns
    have hget := (lastAssigned_of_readFrom hm).2 target
    rw [get_zero] at hget
    exact ⟨m, hm, hget.unique hlast⟩
  · rintro ⟨m, hm, rfl⟩
    obtain ⟨hassigns, hlast⟩ := lastAssigned_of_readFrom hm
    have hget := hlast target
    rw [get_zero] at hget
    exact .read hassigns hget

/-- In a history the target has the value that was last written to it, or zero if none was. -/
def LastWritten (history : List Command) (target : Target) (value : UInt64) : Prop :=
  (∃ before c after, history = before ++ c :: after ∧ Writes c target value ∧
      ∀ later ∈ after, ∀ v, ¬ Writes later target v) ∨
    (∀ c ∈ history, ∀ v, ¬ Writes c target v) ∧ value = 0

theorem LastWritten.concat {history : List Command} {target : Target} {value : UInt64}
    {c : Command} (h : LastWritten history target value) (hc : ∀ v, ¬ Writes c target v) :
    LastWritten (history ++ [c]) target value := by
  rcases h with ⟨before, last, after, rfl, hlast, hafter⟩ | ⟨hnone, rfl⟩
  · refine .inl ⟨before, last, after ++ [c], by simp, hlast, ?_⟩
    simpa [or_imp, forall_and] using ⟨hafter, hc⟩
  · refine .inr ⟨?_, rfl⟩
    simpa [or_imp, forall_and] using ⟨hnone, hc⟩

/-- The saved copy is the state at the last save, or the zero machine if there was none. -/
def LastSaved (history : List Command) (saved : Machine) : Prop :=
  (∃ before after, history = before ++ .save :: after ∧ .save ∉ after ∧
      saved = (Session.start.after before).current) ∨
    .save ∉ history ∧ saved = zero

theorem LastSaved.concat {history : List Command} {saved : Machine} {c : Command}
    (h : LastSaved history saved) (hc : c ≠ .save) : LastSaved (history ++ [c]) saved := by
  rcases h with ⟨before, after, rfl, hafter, hsaved⟩ | ⟨hnone, hsaved⟩
  · exact .inl ⟨before, after ++ [c], by simp, by simp [hafter, hc.symm], hsaved⟩
  · exact .inr ⟨by simp [hnone, hc.symm], hsaved⟩

namespace Session

variable {s : Session} {c : Command} {target : Target}

/-! ## One command -/

theorem next_of_error {e : Error} (h : s.step c = .error e) : s.next c = s := by
  rw [next, h]

theorem next_of_ok {answer : Answer} {s' : Session} (h : s.step c = .ok (answer, s')) :
    s.next c = s' := by
  rw [next, h]

theorem step_read_of_ok {text : String} {m : Machine} (h : Machine.read text = .ok m) :
    s.step (.read text) = .ok (s.replace m) := by
  rw [step, h]
  rfl

theorem step_read_of_error {text : String} {e : Error} (h : Machine.read text = .error e) :
    s.step (.read text) = .error e := by
  rw [step, h]
  rfl

theorem step_setRegister_of_lt (index : Fin registerCount) (value : UInt64) :
    s.step (.setRegister index value) = .ok (s.replace (s.current.setRegister index value)) := by
  rw [step, setRegister?, dif_pos index.isLt]
  rfl

theorem step_setRegister_of_ge {index : ℕ} (h : registerCount ≤ index) (value : UInt64) :
    s.step (.setRegister index value) = .error (.registerOutOfRange index) := by
  rw [step, setRegister?, dif_neg (Nat.not_lt.mpr h)]
  rfl

/-- What a command writes is there afterwards. -/
theorem get_next_of_writes {value : UInt64} (h : Writes c target value) :
    (s.next c).current.get target = value := by
  cases h with
  | reset => exact get_zero target
  | read hassigns hlast =>
    obtain ⟨m, hm, hget⟩ := writes_read_iff.mp (.read hassigns hlast)
    rw [next_of_ok (step_read_of_ok hm)]
    exact hget
  | setStackPointer => rfl
  | @setRegister index =>
    rw [next_of_ok (step_setRegister_of_lt index value)]
    exact (get_assign s.current ⟨.register index, value⟩ _).trans (if_pos rfl)

/-- A target that a command does not write to keeps its value. -/
theorem get_next_of_not_writes (h : ∀ v, ¬ Writes c target v) :
    (s.next c).current.get target = s.current.get target := by
  cases c with
  | reset => exact absurd .reset (h 0)
  | read text =>
    cases hread : Machine.read text with
    | error e => rw [next_of_error (step_read_of_error hread)]
    | ok m => exact absurd (writes_read_iff.mpr ⟨m, hread, rfl⟩) (h (m.get target))
  | setStackPointer value =>
    cases target with
    | stackPointer => exact absurd .setStackPointer (h value)
    | register index => rfl
  | setRegister index value =>
    by_cases hlt : index < registerCount
    · rw [next_of_ok (step_setRegister_of_lt ⟨index, hlt⟩ value)]
      refine (get_assign s.current ⟨.register ⟨index, hlt⟩, value⟩ _).trans (if_neg ?_)
      rintro rfl
      exact h value (@Writes.setRegister ⟨index, hlt⟩ value)
    · rw [next_of_error (step_setRegister_of_ge (Nat.not_lt.mp hlt) value)]
  | register | stackPointer | save | same => rfl

/-- Only a save changes the saved copy. -/
theorem saved_next (h : c ≠ .save) : (s.next c).saved = s.saved := by
  cases c with
  | save => exact absurd rfl h
  | read text =>
    cases hread : Machine.read text with
    | error e => rw [next_of_error (step_read_of_error hread)]
    | ok m => rw [next_of_ok (step_read_of_ok hread)]
  | setRegister index value =>
    by_cases hlt : index < registerCount
    · rw [next_of_ok (step_setRegister_of_lt ⟨index, hlt⟩ value)]
    · rw [next_of_error (step_setRegister_of_ge (Nat.not_lt.mp hlt) value)]
  | reset | setStackPointer | register | stackPointer | same => rfl

/-- A command fails for one of two reasons. -/
theorem step_eq_error {e : Error} (h : s.step c = .error e) :
    (∃ index, registerCount ≤ index ∧ e = .registerOutOfRange index) ∨
      ∃ line cause, e = .invalidState line cause := by
  cases c with
  | read text =>
    cases hread : Machine.read text with
    | error e' =>
      rw [step_read_of_error hread] at h
      cases h
      exact .inr (exists_invalidState_of_read hread)
    | ok m =>
      rw [step_read_of_ok hread] at h
      cases h
  | setRegister index value =>
    by_cases hlt : index < registerCount
    · have hok := step_setRegister_of_lt (s := s) ⟨index, hlt⟩ value
      rw [hok] at h
      cases h
    · rw [step_setRegister_of_ge (Nat.not_lt.mp hlt) value] at h
      cases h
      exact .inl ⟨index, Nat.not_lt.mp hlt, rfl⟩
  | reset | setStackPointer | register | stackPointer | save | same => cases h

/-! ## Histories -/

section Histories

variable (s) (history : List Command)

theorem after_concat (c : Command) : s.after (history ++ [c]) = (s.after history).next c := by
  simp [after]

/-- The answers to a history are followed by what the next command answers after it. -/
theorem run_concat (c : Command) :
    s.run (history ++ [c]) = s.run history ++ [((s.after history).step c).map Prod.fst] := by
  induction history generalizing s with
  | nil => rfl
  | cons first history ih =>
    rw [List.cons_append, run, run, ih]
    rfl

theorem lastWritten_after (target : Target) :
    LastWritten history target ((start.after history).current.get target) := by
  induction history using List.reverseRecOn with
  | nil => exact .inr ⟨by simp, get_zero target⟩
  | append_singleton history c ih =>
    rw [after_concat]
    by_cases hwrites : ∃ v, Writes c target v
    · obtain ⟨v, hv⟩ := hwrites
      rw [get_next_of_writes hv]
      exact .inl ⟨history, c, [], rfl, hv, by simp⟩
    · rw [not_exists] at hwrites
      rw [get_next_of_not_writes hwrites]
      exact ih.concat hwrites

theorem lastSaved_after : LastSaved history (start.after history).saved := by
  induction history using List.reverseRecOn with
  | nil => exact .inr ⟨by simp, rfl⟩
  | append_singleton history c ih =>
    rw [after_concat]
    by_cases hsave : c = .save
    · subst hsave
      exact .inl ⟨history, [], rfl, by simp, rfl⟩
    · rw [saved_next hsave]
      exact ih.concat hsave

end Histories

/-- The session is the store that a history leaves behind. -/
structure StoreOf (history : List Command) (s : Session) : Prop where
  /-- Each target has the value that was last written to it, -/
  current : ∀ target, LastWritten history target (s.current.get target)
  /-- and the saved copy is the state at the last save. -/
  saved : LastSaved history s.saved
  /-- A command is answered behind the answers to the history; -/
  answers : ∀ c, start.run (history ++ [c]) = start.run history ++ [(s.step c).map Prod.fst]
  /-- the answer to a question for a register is its value, and there are no others, -/
  register : ∀ index, s.step (.register index) =
    .ok (.value (if h : index < registerCount then some (s.current.get (.register ⟨index, h⟩))
      else none), s)
  /-- the answer to the question for the stack pointer is its value, -/
  stackPointer : s.step .stackPointer = .ok (.value (some (s.current.get .stackPointer)), s)
  /-- and the answer to the comparison tells whether the copy has the same value everywhere. -/
  same : ∃ equal, s.step .same = .ok (.same equal, s) ∧
    (equal = true ↔ ∀ target, s.current.get target = s.saved.get target)
  /-- A register is set exactly if it exists, -/
  setRegister_iff : ∀ index value,
    (∃ answer, s.step (.setRegister index value) = .ok answer) ↔ index < registerCount
  /-- and then nothing else changes; -/
  setRegister : ∀ index value target,
    (∀ i : Fin registerCount, target = .register i → (i : ℕ) ≠ index) →
    (s.next (.setRegister index value)).current.get target = s.current.get target
  /-- nor does a register when the stack pointer is set. -/
  setStackPointer : ∀ value index,
    (s.next (.setStackPointer value)).current.get (.register index) =
      s.current.get (.register index)
  /-- A command that fails leaves the state and the copy as they were. Only registers that do not
  exist and texts that cannot be read make one fail. -/
  failed : ∀ c e, s.step c = .error e → s.next c = s ∧
    ((∃ index, registerCount ≤ index ∧ e = .registerOutOfRange index) ∨
      ∃ line cause, e = .invalidState line cause)

/-- Whatever commands are given, a session that began with the zero machine is the store that
they leave behind. -/
theorem storeOf_after (history : List Command) : StoreOf history (start.after history) where
  current := lastWritten_after history
  saved := lastSaved_after history
  answers := run_concat start history
  register index := by
    rw [step, register?]
    split
    next hlt => rw [Vector.getElem?_eq_getElem hlt]; rfl
    next hge => rw [Vector.getElem?_eq_none (Nat.not_lt.mp hge)]
  stackPointer := rfl
  same := ⟨_, rfl, by rw [decide_eq_true_iff, eq_iff_get]⟩
  setRegister_iff index value := by
    constructor
    · rintro ⟨answer, h⟩
      by_contra hge
      rw [step_setRegister_of_ge (Nat.not_lt.mp hge)] at h
      cases h
    · exact fun hlt => ⟨_, step_setRegister_of_lt ⟨index, hlt⟩ value⟩
  setRegister index value target h := by
    refine get_next_of_not_writes ?_
    rintro v ⟨⟩
    exact h _ rfl rfl
  setStackPointer value index := rfl
  failed c e h := ⟨next_of_error h, step_eq_error h⟩

end Session

end CallLayout.Machine

import CallLayout.Proofs.Session

/-!
# Invariants of a convention

A convention *keeps* a property of positions on a machine if positions start with it, and if every
value can be placed from a position that has it and leads to one that has it again
(`Convention.Keeps`). Both are facts about one step. What follows is that nothing overflows,
however many values are placed: neither lists of values nor calls, whether they are observed or
not (`Keeps.placeItems`, `Keeps.watchCall`), nor any command of a session (`Keeps.step`), so that a
session answers all its commands, and its positions have the property all along (`Keeps.run`).
-/

namespace CallLayout.Convention

variable {P R A σ : Type}

/-- Positions on the machine start with the property `I`, and every value can be placed from a
position with it and leads to a position with it. -/
structure Keeps (c : Convention P R A) (m : Machine) (I : P → Prop) : Prop where
  start : I (c.start m)
  place : ∀ item p, I p → ∃ q, c.place m.registers item p = .ok q ∧ I q

/-- An observed placement that ends at a position has gathered something there. -/
theorem exists_of_map_fst_eq_ok {x : Except Overflow (P × σ)} {q : P}
    (h : x.map Prod.fst = .ok q) : ∃ t, x = .ok (q, t) := by
  cases x with
  | error cause => cases h
  | ok reached =>
    cases h
    exact ⟨reached.2, rfl⟩

/-- The position of a session and its saved copy have the property `I`. -/
structure Session.Within (I : P → Prop) (s : Session P) : Prop where
  position : I s.position
  saved : I s.saved

theorem Session.Within.moveTo {I : P → Prop} {s : Session P} (hs : s.Within I) {q : P}
    (hq : I q) : (s.moveTo q).Within I :=
  ⟨hq, hs.saved⟩

namespace Keeps

variable {c : Convention P R A} {m : Machine} {I : P → Prop} (h : c.Keeps m I) {p : P} (hp : I p)
include h hp

/-! ## Placements -/

theorem placeItems (items : List (Item R A)) :
    ∃ q, c.placeItems m.registers items p = .ok q ∧ I q := by
  induction items generalizing p with
  | nil => exact ⟨p, rfl, hp⟩
  | cons item items ih =>
    obtain ⟨next, hnext, hI⟩ := h.place item p hp
    rw [Convention.placeItems, hnext]
    exact ih hI

theorem placeCall (s : Signature R A) : ∃ q, c.placeCall m.registers s p = .ok q ∧ I q := by
  rw [placeCall_eq_placeItems]
  exact h.placeItems hp _

theorem watchCall [GuestType R] [GuestType A] (observe : Observer P σ) (t : σ) (s : Signature R A) :
    ∃ q u, c.watchCall observe m.registers s (p, t) = .ok (q, u) ∧ I q := by
  obtain ⟨q, hq, hI⟩ := h.placeCall hp s
  obtain ⟨u, hu⟩ := exists_of_map_fst_eq_ok ((map_fst_watchCall observe s (p, t)).trans hq)
  exact ⟨q, u, hu, hI⟩

omit hp

/-! ## Sessions -/

/-- No command of a session overflows, and each leads to a session with the property. -/
theorem next {s : Session P} (hs : s.Within I) (command : Command R A) :
    ∃ t, s.next c m command = .ok t ∧ t.Within I := by
  have hplace : ∀ items, ∃ t,
      (c.placeItems m.registers items s.position).map s.moveTo = .ok t ∧ t.Within I := by
    intro items
    obtain ⟨q, hq, hI⟩ := h.placeItems hs.position items
    rw [hq]
    exact ⟨_, rfl, hs.moveTo hI⟩
  cases command with
  | start => exact ⟨_, rfl, h.start, hs.saved⟩
  | save => exact ⟨_, rfl, hs.position, hs.position⟩
  | restore => exact ⟨_, rfl, hs.saved, hs.saved⟩
  | same | name index | describe => exact ⟨s, rfl, hs⟩
  | _ => exact hplace _

variable [DecidableEq P] [GuestType R] [GuestType A]

/-- Every command of a session is answered, from a session with the property. -/
theorem step {s : Session P} (hs : s.Within I) (command : Command R A) :
    ∃ entry, s.step c m command = .ok entry ∧ entry.session.Within I := by
  obtain ⟨t, hnext, hwithin⟩ := h.next hs command
  obtain ⟨entry, hstep, rfl⟩ := Session.exists_step_of_next hnext
  exact ⟨entry, hstep, hwithin⟩

/-- A session answers all its commands, and has the property after each of them. -/
theorem run {s : Session P} (hs : s.Within I) (commands : List (Command R A)) :
    ∃ entries : List (Entry P), s.run c m commands = entries.map .ok ∧
      entries.length = commands.length ∧ ∀ entry ∈ entries, entry.session.Within I := by
  induction commands generalizing s with
  | nil => exact ⟨[], rfl, rfl, nofun⟩
  | cons command commands ih =>
    obtain ⟨entry, hentry, hwithin⟩ := h.step hs command
    obtain ⟨entries, hrun, hlength, hall⟩ := ih hwithin
    refine ⟨entry :: entries, ?_, congrArg Nat.succ hlength, ?_⟩
    · rw [Session.run, hentry, List.map_cons, ← hrun]
    · exact List.forall_mem_cons.mpr ⟨hwithin, hall⟩

theorem run_start (commands : List (Command R A)) :
    ∃ entries : List (Entry P), (Session.start c m).run c m commands = entries.map .ok ∧
      entries.length = commands.length ∧ ∀ entry ∈ entries, entry.session.Within I :=
  h.run ⟨h.start, h.start⟩ commands

end Keeps

end CallLayout.Convention

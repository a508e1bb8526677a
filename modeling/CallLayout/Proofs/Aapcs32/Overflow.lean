import CallLayout.Proofs.Aapcs32.Cursor
import CallLayout.Proofs.Invariant
import CallLayout.Proofs.Report.Recorder

/-!
# Checked arithmetic under the Arm convention

Addresses wrap around, but registers and words are counted with checked operations, any of which
could overflow. None does, because no more than four registers are ever handed out: that alone is
enough for every operation that a rule may perform (`Position.checksPass`), even on an aggregate of
nearly `2 ^ 64` bytes, and every position reached stands at a cursor, which knows four registers
only (`keeps_atWord`). Hence nothing fails under the convention, be it a placement, a session or a
report (`never_overflows`).
-/

namespace CallLayout.Aapcs32

open Word

/-- At the position no operation that the rules check overflows, and each gives the exact number,
whatever value comes next. -/
structure Position.ChecksPass (p : Position) : Prop where
  /-- No more than the four registers are handed out. -/
  nextRegister_le : p.nextRegister ≤ 4
  /-- A word takes one more register. -/
  word : ∃ next, add p.nextRegister 1 = .ok next ∧ next.toNat = p.nextRegister.toNat + 1
  /-- A 64-bit scalar takes two registers from the next even one on. -/
  doubleWord : ∃ first next,
    nextMultiple p.nextRegister 2 = .ok first ∧ first.toNat = roundUp p.nextRegister.toNat 2 ∧
    add first 2 = .ok next ∧ next.toNat = first.toNat + 2
  /-- An aggregate takes the registers that are left, as far as it needs them, and is stacked with
  the rest of its words. -/
  aggregate : ∃ free, sub registerLimit p.nextRegister = .ok free ∧
    free.toNat = 4 - p.nextRegister.toNat ∧
    ∀ words, ∃ next stacked,
      add p.nextRegister (min words free) = .ok next ∧
      next.toNat = p.nextRegister.toNat + min words.toNat free.toNat ∧
      sub words (min words free) = .ok stacked ∧
      stacked.toNat = words.toNat - min words.toNat free.toNat

/-- It is enough that no more than four registers are handed out. -/
theorem Position.checksPass {p : Position} (h : p.nextRegister ≤ 4) : p.ChecksPass := by
  have hle : p.nextRegister.toNat ≤ 4 := UInt64.le_iff_toNat_le.mp h
  constructor
  · exact h
  · apply exists_add_eq_ok
    change _ + 1 < _
    omega
  · have hround : roundUp p.nextRegister.toNat 2 ≤ 4 := roundUp_le (by decide) (by decide) hle
    obtain ⟨first, hfirst, hexact⟩ := exists_nextMultiple_eq_ok (n := p.nextRegister) (m := 2)
      (by decide) (hround.trans_lt (by decide))
    change first.toNat = roundUp p.nextRegister.toNat 2 at hexact
    obtain ⟨next, hnext⟩ := exists_add_eq_ok (a := first) (b := 2) (by
      change _ + 2 < _
      omega)
    exact ⟨first, next, hfirst, hexact, hnext⟩
  · obtain ⟨free, hfree, hexact⟩ := exists_sub_eq_ok (a := registerLimit) h
    change free.toNat = 4 - p.nextRegister.toNat at hexact
    refine ⟨free, hfree, hexact, fun words => ?_⟩
    rw [← toNat_min]
    -- What goes to registers is at most what is left of them, and at most all words.
    obtain ⟨next, hnext, hsum⟩ := exists_add_eq_ok (a := p.nextRegister) (b := min words free)
      (by rw [toNat_min]; omega)
    obtain ⟨stacked, hstacked, hrest⟩ := exists_sub_eq_ok (a := words) (b := min words free)
      (by rw [UInt64.le_iff_toNat_le, toNat_min]; omega)
    exact ⟨next, stacked, hnext, hsum, hstacked, hrest⟩

/-- The position stands at a word of the linear frame, on the stack of the machine. -/
def AtWord (m : Machine) (p : Position) : Prop :=
  ∃ v, 4 ∣ v ∧ p = .ofCursor (stackBase m) v

theorem keeps_atWord (m : Machine) : aapcs32.Keeps m (AtWord m) where
  start := ⟨0, Nat.dvd_zero 4, start_eq_ofCursor m⟩
  place := by
    rintro item p ⟨v, hv, rfl⟩
    exact ⟨_, place_ofCursor m.registers (dvd_stackBase m) hv item,
      advance (phase m) item v, dvd_advance (dvd_phase m) hv item, rfl⟩

theorem AtWord.checksPass {m : Machine} {p : Position} (h : AtWord m p) : p.ChecksPass := by
  obtain ⟨v, -, rfl⟩ := h
  apply Position.checksPass
  rw [UInt64.le_iff_toNat_le, (Position.atCursor_ofCursor _ _).nextRegister]
  exact Nat.min_le_left 4 _

/-- Nothing overflows under the Arm convention. Whatever has been placed, in whatever order and
from whatever stack pointer, no more than four registers are handed out, no checked operation of
any rule overflows, and every value and every call can be placed next, observed or not. So a
session answers all its commands, and every call has a report. The number of words of an aggregate
is exact. -/
theorem never_overflows (m : Machine) :
    (∀ size, (unitsFor size wordSize).toNat = (size.toNat + 3) / 4) ∧
    -- Every position that some values lead to.
    (∀ items, ∃ p, aapcs32.placeItems m.registers items (aapcs32.start m) = .ok p ∧
      p.ChecksPass ∧
      (∀ item, ∃ q, aapcs32.place m.registers item p = .ok q) ∧
      (∀ s, ∃ q, aapcs32.placeCall m.registers s p = .ok q) ∧
      ∀ {σ : Type} (observe : Observer Position σ) (t : σ) s,
        ∃ q u, aapcs32.watchCall observe m.registers s (p, t) = .ok (q, u)) ∧
    -- Every position of a session.
    (∀ commands, ∃ entries : List (Convention.Entry Position),
      (Convention.Session.start aapcs32.toConvention m).run aapcs32.toConvention m commands =
        entries.map .ok ∧
      entries.length = commands.length ∧
      ∀ entry ∈ entries, entry.session.position.ChecksPass) ∧
    -- Every report.
    ∀ s, ∃ r, aapcs32.describe m s = .ok r ∧ r.registersUsed ≤ 4 := by
  have hkeeps := keeps_atWord m
  refine ⟨fun _ => toNat_unitsFor (by decide), fun items => ?_, fun commands => ?_, fun s => ?_⟩
  · obtain ⟨p, hp, hI⟩ := hkeeps.placeItems hkeeps.start items
    refine ⟨p, hp, hI.checksPass, fun item => ?_, fun s => ?_, fun observe t s => ?_⟩
    · exact (hkeeps.place item p hI).imp fun _ => And.left
    · exact (hkeeps.placeCall hI s).imp fun _ => And.left
    · obtain ⟨q, u, hq, -⟩ := hkeeps.watchCall hI observe t s
      exact ⟨q, u, hq⟩
  · obtain ⟨entries, hrun, hlength, hall⟩ := hkeeps.run_start commands
    exact ⟨entries, hrun, hlength, fun entry hentry => (hall entry hentry).position.checksPass⟩
  · obtain ⟨p, hp, hI⟩ := hkeeps.placeCall hkeeps.start s
    obtain ⟨r, hr, hused, -⟩ := MeteredConvention.exists_describe_of_placeCall hp
    exact ⟨r, hr, hused ▸ hI.checksPass.nextRegister_le⟩

end CallLayout.Aapcs32

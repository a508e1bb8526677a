import CallLayout.Convention.Syscall64
import CallLayout.Proofs.Composition
import CallLayout.Proofs.Counting

/-!
# Registers under the system call convention

The convention counts registers with a checked sum, so a placement that succeeds adds the exact
number of registers of its value. A call whose registers fit a word in total always has a report,
which is that of the sums over its beginnings (`describe_eq`).

The total decides everything else too: from the start, values are placed exactly if their
registers fit a word in total, whatever their order is (`placeItems_start`). The main result is
`placement_counts_registers`, which says what the count is, what a position tells of it, and where
it overflows.
-/

namespace CallLayout.Syscall64

/-- The exact number of registers that a value takes. -/
def registers : Item ResultType ValueType → ℕ
  | .result _ => 0
  | .argument type => (registersFor type).toNat

/-- An argument is placed by a checked sum. -/
theorem place_argument (g : Registers) (type : ValueType) (p : Position) :
    syscall64.place g (.argument type) p =
      (Word.add p.next (registersFor type)).map Position.mk := by
  change p.take (registersFor type) = _
  unfold Position.take
  cases Word.add p.next (registersFor type) <;> rfl

theorem toNat_next_of_place {g : Registers} {item : Item ResultType ValueType} {p q : Position}
    (h : syscall64.place g item p = .ok q) : q.next.toNat = p.next.toNat + registers item := by
  match item with
  | .result type =>
    cases h
    rfl
  | .argument type =>
    rw [place_argument, Word.add] at h
    split at h
    next hfits =>
      -- The check rules out that the sum goes around.
      cases h
      exact (UInt64.toNat_add _ _).trans (Nat.mod_eq_of_lt hfits)
    next => cases h

/-- The exact number of registers that some values take. -/
def total (items : List (Item ResultType ValueType)) : ℕ := (items.map registers).sum

theorem total_take_succ {items : List (Item ResultType ValueType)} {k : ℕ}
    (h : k < items.length) :
    total (items.take (k + 1)) = total (items.take k) + registers items[k] := by
  rw [total, total, List.map_take, List.map_take, List.sum_take_succ _ k (by simpa using h),
    List.getElem_map]

theorem total_take_le (items : List (Item ResultType ValueType)) (k : ℕ) :
    total (items.take k) ≤ total items := by
  have hsplit : total (items.take k) + total (items.drop k) = total items := by
    rw [total, total, ← List.sum_append, ← List.map_append, List.take_append_drop, total]
  exact hsplit ▸ Nat.le_add_right _ _

/-- The position after `n` registers. -/
def Position.ofTotal (n : ℕ) : Position := ⟨UInt64.ofNat n⟩

/-- Placing a value adds its registers, with a check. -/
theorem counts_registers (g : Registers) : syscall64.Counts g .ofTotal registers where
  place hn
    | .result _ => (Convention.checked_of_lt hn).symm
    | .argument type =>
      (place_argument g type _).trans (Convention.map_add_ofNat Position.mk hn (registersFor type))

/-- The positions of a placement are those of the sums over each beginning of the values. -/
theorem walk_total (m : Machine) {items : List (Item ResultType ValueType)}
    (h : total items < 2 ^ 64) :
    syscall64.Walk m.registers items fun k => .ofTotal (total (items.take k)) := by
  intro k hk
  have hfits := Nat.lt_of_le_of_lt (total_take_le items (k + 1)) h
  dsimp only
  rw [total_take_succ hk] at hfits ⊢
  have hbefore := Nat.lt_of_le_of_lt (Nat.le_add_right _ _) hfits
  rw [(counts_registers m.registers).place hbefore, Convention.checked_of_lt hfits]

/-- A call whose registers fit a word has a report, and it is that of their sums. -/
theorem describe_eq (m : Machine) {s : Signature ResultType ValueType}
    (h : total s.items < 2 ^ 64) :
    syscall64.describe m s =
      .ok (syscall64.reportAlong s fun k => .ofTotal (total (s.items.take k))) :=
  MeteredConvention.describe_eq_reportAlong (walk_total m h) rfl

/-! ## Where the count overflows -/

/-- Placing a value fails if the sum does not fit a word. -/
theorem place_ofTotal_of_le (g : Registers) {n : ℕ} {item : Item ResultType ValueType}
    (hn : n < 2 ^ 64) (h : 2 ^ 64 ≤ n + registers item) :
    syscall64.place g item (.ofTotal n) = .error .addition := by
  rw [(counts_registers g).place hn, Convention.checked_of_le h]

/-- From the start, values are placed exactly if their registers fit a word in total. -/
theorem placeItems_start (m : Machine) (items : List (Item ResultType ValueType)) :
    syscall64.placeItems m.registers items (syscall64.start m) =
      if total items < 2 ^ 64 then .ok (.ofTotal (total items)) else .error .addition := by
  have hplace := (counts_registers m.registers).placeItems (by decide : 0 < 2 ^ 64) items
  rwa [Nat.zero_add] at hplace

theorem placeItems_start_of_lt (m : Machine) {items : List (Item ResultType ValueType)}
    (h : total items < 2 ^ 64) :
    syscall64.placeItems m.registers items (syscall64.start m) = .ok (.ofTotal (total items)) := by
  rw [placeItems_start, if_pos h]

/-- The sum of the registers does not depend on the order of the values. -/
theorem placeItems_start_perm (m : Machine) {items items' : List (Item ResultType ValueType)}
    (h : items.Perm items') :
    syscall64.placeItems m.registers items (syscall64.start m) =
      syscall64.placeItems m.registers items' (syscall64.start m) := by
  have htotal : total items = total items' := (h.map registers).sum_eq
  rw [placeItems_start, placeItems_start, htotal]

/-- A call has no report exactly if its registers do not fit a word. -/
theorem describe_eq_error_iff {m : Machine} {s : Signature ResultType ValueType}
    {cause : Overflow} :
    syscall64.describe m s = .error cause ↔ cause = .addition ∧ 2 ^ 64 ≤ total s.items := by
  rw [MeteredConvention.describe_eq_error_iff, Convention.placeCall_eq_placeItems,
    placeItems_start]
  exact Convention.checked_eq_error_iff

/-! ## What a position tells -/

/-- The position is reached after `n` registers. -/
structure Position.Counts (p : Position) (n : ℕ) : Prop where
  /-- The next register has this number, -/
  next : p.next.toNat = n
  /-- as many registers are reported, -/
  registersUsed : (syscall64.registersUsed p).toNat = n
  /-- and no stack is. -/
  stackUsed : syscall64.stackUsed p = 0
  /-- The six registers are exceeded by more than six, -/
  overflowed : p.overflowed = true ↔ 6 < n
  /-- and the next register has a name if it is one of the six. -/
  registerName : (syscall64.registerName? p.next.toNat).isSome ↔ n < 6

theorem Position.counts_ofTotal {n : ℕ} (h : n < 2 ^ 64) : (ofTotal n).Counts n := by
  have hnext : (ofTotal n).next.toNat = n := UInt64.toNat_ofNat_of_lt' h
  refine ⟨hnext, hnext, rfl, ?_, ?_⟩
  · rw [overflowed, hnext, decide_eq_true_iff]
    rfl
  · rw [hnext, Convention.registerName?, isSome_getElem?]
    rfl

theorem registers_blob (size : UInt64) :
    registers (.argument (.blob size)) = (size.toNat + 7) / 8 :=
  Word.toNat_unitsFor (by decide)

/-- The system call convention counts registers exactly. A scalar takes one, an aggregate one for
each eight bytes that it begins, and a result none. Values whose registers fit a word in total are
placed and counted; the first value that goes over is where placing them overflows. Hence a call
has no report exactly if its registers do not fit a word, and neither the overflow nor where the
call ends depends on the order of its arguments. -/
theorem placement_counts_registers (m : Machine) :
    -- What each value takes.
    ((∀ type, registers (.result type) = 0) ∧
      (∀ type, registers (.argument (.scalar type)) = 1) ∧
      ∀ size, registers (.argument (.blob size)) = (size.toNat + 7) / 8) ∧
    -- Values that fit, and the first one that does not.
    (∀ items, total items < 2 ^ 64 → ∃ p,
      syscall64.placeItems m.registers items (syscall64.start m) = .ok p ∧
        p.Counts (total items)) ∧
    (∀ items item, total items < 2 ^ 64 → 2 ^ 64 ≤ total items + registers item → ∃ p,
      syscall64.placeItems m.registers items (syscall64.start m) = .ok p ∧
        syscall64.place m.registers item p = .error .addition) ∧
    Overflow.addition.message = "attempt to add with overflow" ∧
    -- Calls without a report.
    (∀ s cause, syscall64.describe m s = .error cause ↔
      cause = .addition ∧ 2 ^ 64 ≤ total s.items) ∧
    -- The order of the arguments.
    ∀ (s : Signature ResultType ValueType) arguments, s.arguments.Perm arguments →
      syscall64.placeCall m.registers ⟨s.result, arguments⟩ (syscall64.start m) =
          syscall64.placeCall m.registers s (syscall64.start m) ∧
        (syscall64.describe m ⟨s.result, arguments⟩).map Report.ending =
          (syscall64.describe m s).map Report.ending := by
  refine ⟨⟨fun _ => rfl, fun _ => rfl, registers_blob⟩, fun items h => ?_,
    fun items item h hitem => ?_, rfl, fun _ _ => describe_eq_error_iff,
    fun s _ h => MeteredConvention.placeCall_perm (fun _ _ => placeItems_start_perm m) s h⟩
  · exact ⟨_, placeItems_start_of_lt m h, Position.counts_ofTotal h⟩
  · exact ⟨_, placeItems_start_of_lt m h, place_ofTotal_of_le m.registers h hitem⟩

/-- Eight aggregates of nearly `2 ^ 64` bytes are one register too many, in whatever order they
come with a scalar. -/
theorem placement_counts_registers_eight_aggregates :
    let m : Machine := Machine.zero
    let blob : ValueType := .blob 0xfffffffffffffffe
    let s : Signature ResultType ValueType := ⟨.unit, .scalar .u8 :: List.replicate 7 blob⟩
    total s.items = 7 * 2 ^ 61 + 1 ∧
      (∃ p, syscall64.placeItems m.registers s.items (syscall64.start m) = .ok p ∧
        p.Counts (7 * 2 ^ 61 + 1) ∧
        syscall64.place m.registers (.argument blob) p = .error .addition) ∧
      syscall64.describe m ⟨.unit, List.replicate 8 blob⟩ = .error .addition ∧
      s.arguments.Perm (List.replicate 7 blob ++ [.scalar .u8]) ∧
      (syscall64.describe m ⟨s.result, List.replicate 7 blob ++ [.scalar .u8]⟩).map
        Report.ending = (syscall64.describe m s).map Report.ending := by
  intro m blob s
  have htotal : total s.items = 7 * 2 ^ 61 + 1 := by decide
  obtain ⟨-, hfits, hover, -, hreport, hperm⟩ := placement_counts_registers m
  have hlt : total s.items < 2 ^ 64 := by decide
  obtain ⟨p, hp, hcounts⟩ := hfits s.items hlt
  obtain ⟨q, hq, hitem⟩ := hover s.items (.argument blob) hlt (by decide)
  have hreordered : s.arguments.Perm (List.replicate 7 blob ++ [.scalar .u8]) := by decide
  -- Both facts are about the position that the values before the last aggregate end at.
  obtain rfl : p = q := Except.ok.inj (hp.symm.trans hq)
  refine ⟨htotal, ⟨p, hp, htotal ▸ hcounts, hitem⟩, ?_, hreordered, ?_⟩
  · exact (hreport ⟨.unit, List.replicate 8 blob⟩ .addition).mpr ⟨rfl, by decide⟩
  · exact (hperm s _ hreordered).2

end CallLayout.Syscall64

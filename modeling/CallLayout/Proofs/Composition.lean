import CallLayout.Convention.Aapcs32
import CallLayout.Convention.Stack
import CallLayout.Proofs.Report.Recorder
import CallLayout.Proofs.Rounding

/-!
# Composition of placements

A call can be placed in parts. Placing some items and then others from where the first ended is
placing them all, overflow included: if one of the first items does not fit, the others are never
looked at. The same holds under an observer, as long as the numbers of the later arguments go on
where the earlier ones stopped.

All of this is true of every convention and from every position. A convention only says how one
value moves the position, so the laws are inductions over the list of the values.

The numbers of a call's arguments are their places in it. Arguments that are placed on their own may
be numbered from any word on, and then they also overflow if the number behind the last one is no
word any more. Where it is one, both ways of numbering agree (`watchArguments_eq_watchNumbered`).

## Main results

* `Convention.placeItems_append`, `Convention.watchNumbered_append`: placing in two parts.
* `Convention.placeItems_eq_error_iff`: where a placement overflows.
* `Convention.watchArguments_eq_watchNumbered`, `Convention.watchArguments_of_le`: numbers that are
  words, with and without one behind the last argument.
* `Convention.watchNumbered_log`, `Convention.watchCall_log`: what a log holds in the end.
* `Convention.placement_compositional`: the laws together, for a call in two parts.
-/

namespace CallLayout

variable {P R A σ : Type}

/-- The steps that place some arguments, of which the first has the number `index`. -/
def argumentLog [GuestType A] (index : ℕ) (types : List A) : List LogEntry :=
  types.mapIdx fun k type => ⟨.argument (index + k), GuestType.text type⟩

section ArgumentLog

variable [GuestType A] (index : ℕ)

@[simp]
theorem argumentLog_nil : argumentLog index ([] : List A) = [] := rfl

@[simp]
theorem argumentLog_cons (type : A) (types : List A) :
    argumentLog index (type :: types) =
      ⟨.argument index, GuestType.text type⟩ :: argumentLog (index + 1) types := by
  simp [argumentLog, List.mapIdx_cons, Nat.add_assoc, Nat.add_comm 1]

/-- A call's log is the step of its result, then its arguments from number zero on. -/
theorem Signature.log_eq [GuestType R] (s : Signature R A) :
    s.log = ⟨.result, GuestType.text s.result⟩ :: argumentLog 0 s.arguments := by
  simp [Signature.log, argumentLog]

end ArgumentLog

namespace Convention

variable (c : Convention P R A) (registers : Registers)

/-! ## Placing in two parts -/

theorem placeItems_append (items rest : List (Item R A)) (p : P) :
    c.placeItems registers (items ++ rest) p =
      c.placeItems registers items p >>= c.placeItems registers rest := by
  induction items generalizing p with
  | nil => rfl
  | cons item items ih =>
    rw [List.cons_append, placeItems, placeItems, bind_assoc]
    exact bind_congr fun q => ih q

/-- Items overflow where the first of them that does not fit is reached, and with its cause. -/
theorem placeItems_eq_error_iff (items : List (Item R A)) (p : P) (cause : Overflow) :
    c.placeItems registers items p = .error cause ↔
      ∃ placed item rest q, items = placed ++ item :: rest ∧
        c.placeItems registers placed p = .ok q ∧ c.place registers item q = .error cause := by
  constructor
  · intro h
    induction items generalizing p with
    | nil => cases h
    | cons item items ih =>
      rw [placeItems] at h
      cases hitem : c.place registers item p with
      | error other =>
        rw [hitem] at h
        cases h
        exact ⟨[], item, items, p, rfl, rfl, hitem⟩
      | ok next =>
        rw [hitem] at h
        obtain ⟨placed, bad, rest, q, rfl, hplaced, hbad⟩ := ih next h
        refine ⟨item :: placed, bad, rest, q, rfl, ?_, hbad⟩
        rw [placeItems, hitem]
        exact hplaced
  · rintro ⟨placed, item, rest, q, rfl, hplaced, hitem⟩
    -- The first part reaches `q`, where the next item is the one that fails.
    rw [placeItems_append, hplaced]
    change c.placeItems registers (item :: rest) q = .error cause
    rw [placeItems, hitem]
    rfl

theorem placeArguments_append (xs ys : List A) (p : P) :
    c.placeArguments registers (xs ++ ys) p =
      c.placeArguments registers xs p >>= c.placeArguments registers ys :=
  List.foldlM_append

section Observed

variable [GuestType A]

/-! ## Numbers that are words -/

/-- Every word but the greatest has a next one. -/
theorem exists_next_number {index : UInt64} (h : index.toNat + 1 < 2 ^ 64) :
    ∃ next, Word.add index 1 = .ok next ∧ next.toNat = index.toNat + 1 :=
  Word.exists_add_eq_ok h

/-- As long as there is a number behind the last argument, the numbers are exact. -/
theorem watchArguments_eq_watchNumbered (observe : Observer P σ) {index : UInt64} {types : List A}
    (h : index.toNat + types.length < 2 ^ 64) (s : P × σ) :
    c.watchArguments observe registers index types s =
      c.watchNumbered observe registers index.toNat types s := by
  induction types generalizing index s with
  | nil => rfl
  | cons type types ih =>
    rw [List.length_cons] at h
    obtain ⟨next, hnext, hnumber⟩ := exists_next_number (by omega : index.toNat + 1 < 2 ^ 64)
    rw [watchArguments, watchNumbered, hnext, ← hnumber]
    exact bind_congr fun q => ih (by omega) _

/-- Otherwise the arguments are placed one by one until the greatest number is used up, and then
there is no number for what comes next. -/
theorem watchArguments_of_le (observe : Observer P σ) {index : UInt64} {types : List A}
    (h : 2 ^ 64 ≤ index.toNat + types.length) (s : P × σ) :
    c.watchArguments observe registers index types s =
      c.placeArguments registers (types.take (2 ^ 64 - index.toNat)) s.1 >>= fun _ =>
        .error .addition := by
  induction types generalizing index s with
  | nil => exact absurd index.toNat_lt (Nat.not_lt.mpr h)
  | cons type types ih =>
    rw [List.length_cons] at h
    have hroom : 2 ^ 64 - index.toNat = 2 ^ 64 - (index.toNat + 1) + 1 := by
      have hlt := index.toNat_lt
      omega
    rw [hroom, List.take_succ_cons, placeArguments, List.foldlM_cons, watchArguments, bind_assoc]
    refine bind_congr fun q => ?_
    by_cases hfits : index.toNat + 1 < 2 ^ 64
    · obtain ⟨next, hnext, hnumber⟩ := exists_next_number hfits
      rw [hnext, ← hnumber]
      exact ih (by omega) _
    · -- The argument has the greatest number.
      have hlast := Nat.not_lt.mp hfits
      rw [Word.add_eq_error hlast, Nat.sub_eq_zero_of_le hlast, List.take_zero]
      rfl

/-- Under an observer the second part is numbered from where the first part ended. -/
theorem watchArguments_append (observe : Observer P σ) (index : UInt64) (xs ys : List A)
    (s : P × σ) :
    c.watchArguments observe registers index (xs ++ ys) s =
      c.watchArguments observe registers index xs s >>=
        c.watchArguments observe registers (index + .ofNat xs.length) ys := by
  induction xs generalizing index s with
  | nil =>
    change c.watchArguments observe registers index ys s =
      c.watchArguments observe registers (index + 0) ys s
    rw [UInt64.add_zero]
  | cons x xs ih =>
    rw [List.cons_append, watchArguments, watchArguments, bind_assoc]
    refine bind_congr fun q => ?_
    by_cases hfits : index.toNat + 1 < 2 ^ 64
    · -- After the head, `xs` starts from `index + 1` and `ys` from the same number as before.
      rw [Word.add_eq_ok hfits]
      refine (ih (index + 1) _).trans ?_
      rw [List.length_cons, UInt64.ofNat_add, UInt64.add_assoc, UInt64.add_comm 1]
      rfl
    · rw [Word.add_eq_error (Nat.not_lt.mp hfits)]
      rfl

/-! ## What a log holds -/

/-- Arguments placed under a log are written down one by one behind the entries already there.
Where they overflow there is no log either. -/
theorem watchNumbered_log (index : ℕ) (types : List A) (p : P) (entries : List LogEntry) :
    c.watchNumbered .log registers index types (p, entries) =
      (c.placeArguments registers types p).map fun q =>
        (q, entries ++ argumentLog index types) := by
  induction types generalizing index p entries with
  | nil => simp [watchNumbered, placeArguments, pure, Except.pure, Except.map]
  | cons type types ih =>
    rw [watchNumbered, placeArguments, List.foldlM_cons]
    cases hplace : c.argument registers type p with
    | error cause => rfl
    | ok q =>
      -- The rest starts from `q` with this step at the end of the entries.
      refine (ih (index + 1) q _).trans ?_
      simp only [Observer.log, argumentLog_cons, List.append_assoc, List.singleton_append]
      rfl

/-- A call placed under a log is written down as its log, from any position and behind any
entries. -/
theorem watchCall_log [GuestType R] (s : Signature R A) (p : P) (entries : List LogEntry) :
    c.watchCall .log registers s (p, entries) =
      (c.placeCall registers s p).map fun q => (q, entries ++ s.log) := by
  rw [watchCall, watchResult, placeCall, Signature.log_eq]
  cases hplace : c.result registers s.result p with
  | error cause => rfl
  | ok q =>
    refine (c.watchNumbered_log registers 0 s.arguments q _).trans ?_
    simp only [Observer.log, List.append_assoc, List.singleton_append]
    rfl

end Observed

/-! ## A call in two parts -/

/-- However a call is placed, whoever watches and wherever it starts, its values are placed one by
one: the result, then the first part of the arguments, then the second. A log of the call holds
the result and the arguments with their numbers. An observed placement overflows where the
unobserved one does. Arguments that are numbered from some word on need a number behind the last
one as well; if there is none, the greatest number is the last that is given out. -/
theorem placement_compositional [GuestType R] [GuestType A] (result : R) (xs ys : List A)
    (p : P) :
    -- The values one by one.
    c.placeCall registers ⟨result, xs ++ ys⟩ p =
        c.placeItems registers (.result result :: (xs.map .argument ++ ys.map .argument)) p ∧
    -- The arguments in two parts.
    c.placeArguments registers (xs ++ ys) p =
        c.placeArguments registers xs p >>= c.placeArguments registers ys ∧
    -- Every observer leaves the positions and the overflows as they are.
    (∀ {σ : Type} (observe : Observer P σ) (s : σ),
      (c.watchResult observe registers result (p, s)).map Prod.fst =
          c.result registers result p ∧
        (c.watchCall observe registers ⟨result, xs ++ ys⟩ (p, s)).map Prod.fst =
          c.placeCall registers ⟨result, xs ++ ys⟩ p ∧
        -- The arguments of a call are numbered from zero.
        ((xs ++ ys).length < 2 ^ 64 →
          c.watchCall observe registers ⟨result, xs ++ ys⟩ (p, s) =
            c.watchResult observe registers result (p, s) >>=
              c.watchArguments observe registers 0 (xs ++ ys))) ∧
    -- What is written down of a call.
    c.watchCall .log registers ⟨result, xs ++ ys⟩ (p, []) =
        (c.placeCall registers ⟨result, xs ++ ys⟩ p).map (fun q =>
          (q, ⟨.result, GuestType.text result⟩ ::
            (xs ++ ys).mapIdx fun k type => ⟨.argument k, GuestType.text type⟩)) ∧
    -- The arguments from some number on.
    ∀ index : UInt64,
      (∀ {σ : Type} (observe : Observer P σ) (s : σ),
        -- The second part is observed from the position and the number reached by the first.
        c.watchArguments observe registers index (xs ++ ys) (p, s) =
            c.watchArguments observe registers index xs (p, s) >>=
              c.watchArguments observe registers (index + .ofNat xs.length) ys ∧
          (index.toNat + (xs ++ ys).length < 2 ^ 64 →
            (c.watchArguments observe registers index (xs ++ ys) (p, s)).map Prod.fst =
              c.placeArguments registers (xs ++ ys) p) ∧
          (2 ^ 64 ≤ index.toNat + (xs ++ ys).length →
            c.watchArguments observe registers index (xs ++ ys) (p, s) =
              c.placeArguments registers ((xs ++ ys).take (2 ^ 64 - index.toNat)) p >>= fun _ =>
                .error .addition)) ∧
      -- What is written down of them.
      (index.toNat + (xs ++ ys).length < 2 ^ 64 → ∀ entries : List LogEntry,
        c.watchArguments .log registers index (xs ++ ys) (p, entries) =
          (c.placeArguments registers (xs ++ ys) p).map fun q =>
            (q, entries ++ (xs ++ ys).mapIdx fun k type =>
              ⟨.argument (index.toNat + k), GuestType.text type⟩)) := by
  refine ⟨?_, c.placeArguments_append registers xs ys p, ?_, ?_, fun index => ⟨?_, ?_⟩⟩
  · rw [placeCall_eq_placeItems, Signature.items, List.map_append]
  · intro σ observe s
    refine ⟨map_fst_watchResult observe result (p, s),
      map_fst_watchCall observe ⟨result, xs ++ ys⟩ (p, s), fun hlength => ?_⟩
    have hzero : (0 : UInt64).toNat + (xs ++ ys).length < 2 ^ 64 := by
      rwa [UInt64.toNat_zero, Nat.zero_add]
    exact bind_congr fun t => (c.watchArguments_eq_watchNumbered registers observe hzero t).symm
  · exact c.watchCall_log registers ⟨result, xs ++ ys⟩ p []
  · intro σ observe s
    refine ⟨c.watchArguments_append registers observe index xs ys (p, s), fun hindex => ?_,
      fun hindex => c.watchArguments_of_le registers observe hindex (p, s)⟩
    rw [c.watchArguments_eq_watchNumbered registers observe hindex]
    exact map_fst_watchNumbered observe index.toNat (xs ++ ys) (p, s)
  · intro hindex entries
    rw [c.watchArguments_eq_watchNumbered registers .log hindex]
    exact c.watchNumbered_log registers index.toNat (xs ++ ys) p entries

/-- The number before the greatest can be given out, and the greatest cannot. -/
theorem placement_compositional_greatest_numbers :
    aapcs32.watchCall .log Machine.zero.registers ⟨.unit, [.scalar .i32] ++ [.scalar .i64]⟩
          (aapcs32.start .zero, []) =
        aapcs32.watchResult .log Machine.zero.registers .unit (aapcs32.start .zero, []) >>=
          aapcs32.watchArguments .log Machine.zero.registers 0 ([.scalar .i32] ++ [.scalar .i64]) ∧
      aapcs32.watchArguments .log Machine.zero.registers (.ofNat (2 ^ 64 - 3))
          ([.scalar .i32] ++ [.scalar .i64]) (aapcs32.start .zero, []) =
        .ok (⟨4, 0, 0⟩, [⟨.argument (2 ^ 64 - 3), "i32"⟩, ⟨.argument (2 ^ 64 - 2), "i64"⟩]) ∧
      aapcs32.watchArguments .log Machine.zero.registers (.ofNat (2 ^ 64 - 2))
          ([.scalar .i32] ++ [.scalar .i64]) (aapcs32.start .zero, []) = .error .addition := by
  obtain ⟨-, -, hcall, -, harguments⟩ := aapcs32.placement_compositional Machine.zero.registers
    .unit [.scalar .i32] [.scalar .i64] (aapcs32.start .zero)
  refine ⟨(hcall .log []).2.2 (by decide), ?_, ?_⟩
  · exact ((harguments (.ofNat (2 ^ 64 - 3))).2 (by decide) []).trans (by decide)
  · exact (((harguments (.ofNat (2 ^ 64 - 2))).1 .log []).2.2 (by decide)).trans (by decide)

/-- Not all arguments that are observed are written down. An argument with the greatest number is
placed, but there is no number behind it; and an argument for which there is no room on the stack is
not even placed. -/
theorem watchArguments_log_overflow :
    (∃ p, aapcs32.placeArguments Machine.zero.registers [.scalar .i32] (aapcs32.start .zero) =
        .ok p) ∧
      aapcs32.watchArguments .log Machine.zero.registers (.ofNat (2 ^ 64 - 1)) [.scalar .i32]
        (aapcs32.start .zero, []) = .error .addition ∧
      stack.watchArguments .log Machine.zero.registers 1 [.i32]
        (stack.start ⟨Machine.zero.registers, .ofNat (2 ^ 64 - 1)⟩, []) = .error .addition := by
  exact ⟨⟨⟨1, 0, 0⟩, by decide⟩, by decide, by decide⟩

end Convention

end CallLayout

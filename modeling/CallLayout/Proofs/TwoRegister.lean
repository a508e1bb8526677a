import CallLayout.Convention.TwoRegister
import CallLayout.Proofs.Report.Dependence
import CallLayout.Proofs.Rounding
import CallLayout.Proofs.Session
import Mathlib.Data.List.Flatten

/-!
# Sessions of the two-register demonstration

The position of the two-register convention is a count of the registers handed out and a list of
the arguments with theirs. A result may move the count and leaves the list alone, an argument
moves both. What ties them together is an account of the values placed so far
(`Position.Accounts`): the list has the arguments in order, with growing register numbers below the
count, and what is left of the count was taken by wide results, two registers each.

Each value keeps the account (`Position.Accounts.place`), so every placement does, and so does a
session, which never has more in its history than its commands have placed
(`History.of_sublist`). As a value takes two registers at most, fewer than `2 ^ 62` of them cannot
overflow the count. Nor can the machine make a difference, to this or to any other convention that
looks neither at the registers nor at the stack pointer (`Convention.IgnoresRegisters.run_congr`).
The main result is `session_accounts`.
-/

namespace CallLayout

/-! ## Sessions that do not look at the machine -/

namespace Convention.IgnoresRegisters

variable {P R A : Type} {c : Convention P R A} (h : c.IgnoresRegisters)
include h

theorem placeArguments_congr (g₁ g₂ : Registers) (types : List A) (p : P) :
    c.placeArguments g₁ types p = c.placeArguments g₂ types p := by
  unfold placeArguments
  rw [h.argument g₁ g₂]

theorem placeCall_congr (g₁ g₂ : Registers) (s : Signature R A) (p : P) :
    c.placeCall g₁ s p = c.placeCall g₂ s p := by
  unfold placeCall
  rw [h.result g₁ g₂]
  exact bind_congr fun q => h.placeArguments_congr g₁ g₂ s.arguments q

variable [DecidableEq P] [GuestType R] [GuestType A] {m₁ m₂ : Machine}
  (hstart : c.start m₁ = c.start m₂)
include hstart

/-- No answer depends on more of the machine than the start of the position. -/
theorem step_congr (s : Session P) (command : Command R A) :
    s.step c m₁ command = s.step c m₂ command := by
  -- A command that is observed places its values by another function than one that is not.
  cases command with
  | start => simp only [Session.step, hstart]
  | result observed type =>
    cases observed with
    | false => simp only [Session.step, h.result m₁.registers m₂.registers]
    | true => simp only [Session.step, watchResult, h.result m₁.registers m₂.registers]
  | argument type => simp only [Session.step, h.argument m₁.registers m₂.registers]
  | call observed signature =>
    cases observed with
    | false => simp only [Session.step, h.placeCall_congr m₁.registers m₂.registers]
    | true => simp only [Session.step, h.watchCall_congr .log m₁.registers m₂.registers]
  | arguments signature =>
    simp only [Session.step, h.placeArguments_congr m₁.registers m₂.registers]
  | furtherArguments signature =>
    simp only [Session.step, h.watchNumbered_congr .log m₁.registers m₂.registers]
  | save | restore | same | name index | describe => rfl

theorem run_congr (s : Session P) (commands : List (Command R A)) :
    s.run c m₁ commands = s.run c m₂ commands := by
  induction commands generalizing s with
  | nil => rfl
  | cons command commands ih =>
    rw [Session.run, Session.run, h.step_congr hstart]
    cases s.step c m₂ command with
    | error cause => rfl
    | ok entry => exact congrArg _ (ih entry.session)

end Convention.IgnoresRegisters

namespace TwoRegister

open Convention (Command History Session startCount)

variable {items : List (Item (Returned Value) Value)} {item : Item (Returned Value) Value}
  {g : Registers} {p q : Position}

/-! ## The account of a position -/

/-- The types of the arguments among some values. -/
def argumentTypes (items : List (Item (Returned Value) Value)) : List Value :=
  items.filterMap fun
    | .argument type => some type
    | .result _ => none

/-- The number of wide results among some values. -/
def wideResults (items : List (Item (Returned Value) Value)) : ℕ :=
  items.count (.result (.value .wide))

/-- The position accounts for the values that were placed since it was started. -/
structure Position.Accounts (items : List (Item (Returned Value) Value)) (p : Position) :
    Prop where
  /-- The arguments are written down in the order in which they were placed, -/
  types : p.assigned.map Prod.fst = argumentTypes items
  /-- each with a register behind that of the one before it, -/
  increasing : (p.assigned.map Prod.snd).Pairwise (· < ·)
  /-- which is one of those handed out. -/
  below : ∀ register ∈ p.assigned.map Prod.snd, register < p.used
  /-- There is a register for each argument, and two for each wide result. -/
  used : p.used.toNat = p.assigned.length + 2 * wideResults items

theorem Position.accounts_start : Position.start.Accounts [] :=
  ⟨rfl, List.Pairwise.nil, nofun, rfl⟩

/-! ## One value -/

theorem argumentTypes_append (items rest : List (Item (Returned Value) Value)) :
    argumentTypes (items ++ rest) = argumentTypes items ++ argumentTypes rest :=
  List.filterMap_append

theorem wideResults_append (items rest : List (Item (Returned Value) Value)) :
    wideResults (items ++ rest) = wideResults items + wideResults rest :=
  List.count_append

/-- The number of registers that a value takes. -/
def width : Item (Returned Value) Value → UInt64
  | .argument _ => 1
  | .result (.value .wide) => wideResultRegisters
  | .result _ => 0

/-- What is written down about a value, if `used` registers are handed out before it. -/
def entries (used : UInt64) : Item (Returned Value) Value → List (Value × UInt64)
  | .argument type => [(type, used)]
  | .result _ => []

theorem map_fst_entries (used : UInt64) (item : Item (Returned Value) Value) :
    (entries used item).map Prod.fst = argumentTypes [item] := by
  cases item <;> rfl

/-- What is written down has the first register that is left. -/
theorem eq_of_mem_entries {used register : UInt64}
    (h : register ∈ (entries used item).map Prod.snd) : register = used ∧ width item = 1 := by
  cases item with
  | result type => cases h
  | argument type => exact ⟨List.mem_singleton.mp h, rfl⟩

theorem pairwise_entries (used : UInt64) (item : Item (Returned Value) Value) :
    ((entries used item).map Prod.snd).Pairwise (· < ·) := by
  cases item <;> simp [entries]

/-- The registers of a value hold an argument, or they are those of a wide result. -/
theorem toNat_width (used : UInt64) (item : Item (Returned Value) Value) :
    (width item).toNat = (entries used item).length + 2 * wideResults [item] := by
  match item with
  | .argument type => rfl
  | .result .unit | .result (.value .i32) | .result (.value .i64) | .result (.value .wide) => rfl

theorem toNat_width_le (item : Item (Returned Value) Value) : (width item).toNat ≤ 2 := by
  fun_cases width <;> decide

theorem Position.take_eq_map_add (p : Position) (type : Value) :
    p.take type =
      (Word.add p.used 1).map fun used => ⟨used, p.assigned ++ [(type, p.used)]⟩ := by
  unfold take
  cases Word.add p.used 1 <;> rfl

theorem Position.skip_eq_map_add (p : Position) (count : UInt64) :
    p.skip count = (Word.add p.used count).map fun used => ⟨used, p.assigned⟩ := by
  unfold skip
  cases Word.add p.used count <;> rfl

/-- Placing a value counts its registers, with a check, and writes it down if it is an argument. -/
theorem place_eq_map_add (g : Registers) (item : Item (Returned Value) Value) (p : Position) :
    twoRegister.place g item p = (Word.add p.used (width item)).map fun used =>
      ⟨used, p.assigned ++ entries p.used item⟩ := by
  match item with
  | .argument type => exact p.take_eq_map_add type
  | .result (.value .wide) =>
    simp only [entries, List.append_nil]
    exact p.skip_eq_map_add wideResultRegisters
  | .result .unit | .result (.value .i32) | .result (.value .i64) =>
    -- These take no register, and zero can always be counted.
    have hadd : Word.add p.used 0 = .ok p.used := by
      simpa using Word.add_eq_ok (b := 0) p.used.toNat_lt
    simp only [width, entries, hadd, List.append_nil]
    rfl

/-- What a value that has been placed did to the position. -/
theorem eq_of_place_eq_ok (h : twoRegister.place g item p = .ok q) :
    q.used.toNat = p.used.toNat + (width item).toNat ∧
      q.assigned = p.assigned ++ entries p.used item := by
  rw [place_eq_map_add] at h
  obtain ⟨used, hadd, rfl⟩ := (Convention.map_eq_ok_iff _).mp h
  exact ⟨Word.toNat_of_add_eq_ok hadd, rfl⟩

/-- A value is placed if two more registers can be counted. -/
theorem exists_place_eq_ok (g : Registers) (item : Item (Returned Value) Value)
    (h : p.used.toNat + 2 < 2 ^ 64) : ∃ q, twoRegister.place g item p = .ok q := by
  have hwidth := toNat_width_le item
  rw [place_eq_map_add, Word.add_eq_ok (by omega)]
  exact ⟨_, rfl⟩

/-- Placing a value keeps the account. -/
theorem Position.Accounts.place (hp : p.Accounts items)
    (h : twoRegister.place g item p = .ok q) : q.Accounts (items ++ [item]) := by
  obtain ⟨hused, hassigned⟩ := eq_of_place_eq_ok h
  have hregisters : q.assigned.map Prod.snd =
      p.assigned.map Prod.snd ++ (entries p.used item).map Prod.snd := by
    rw [hassigned, List.map_append]
  refine ⟨?_, ?_, ?_, ?_⟩
  · rw [hassigned, List.map_append, hp.types, map_fst_entries, argumentTypes_append]
  · -- The new register, if there is one, is the count so far, which all the others are below.
    rw [hregisters]
    apply List.pairwise_append.mpr
    refine ⟨hp.increasing, pairwise_entries p.used item, fun register hregister new hnew => ?_⟩
    rw [(eq_of_mem_entries hnew).1]
    exact hp.below register hregister
  · intro register hregister
    rw [hregisters, List.mem_append] at hregister
    rw [UInt64.lt_iff_toNat_lt, hused]
    rcases hregister with hbefore | hnew
    · have hlt := UInt64.lt_iff_toNat_lt.mp (hp.below register hbefore)
      omega
    · obtain ⟨rfl, hwidth⟩ := eq_of_mem_entries hnew
      rw [hwidth]
      exact Nat.lt_succ_self _
  · have hwidth := toNat_width p.used item
    rw [hused, hp.used, hassigned, List.length_append, wideResults_append]
    omega

/-! ## Placements -/

theorem length_argumentTypes_add_wideResults_le (items : List (Item (Returned Value) Value)) :
    (argumentTypes items).length + wideResults items ≤ items.length := by
  induction items with
  | nil => exact Nat.le_refl 0
  | cons item items ih =>
    have hitem : (argumentTypes [item]).length + wideResults [item] ≤ 1 := by
      match item with
      | .argument _ | .result (.value .wide) => exact Nat.le_refl 1
      | .result .unit | .result (.value .i32) | .result (.value .i64) => exact Nat.zero_le 1
    rw [← List.singleton_append, argumentTypes_append, wideResults_append, List.length_append,
      List.length_append, List.length_singleton]
    omega

/-- A value takes two registers at most. -/
theorem Position.Accounts.used_le (hp : p.Accounts items) :
    p.used.toNat ≤ 2 * items.length := by
  have hle := length_argumentTypes_add_wideResults_le items
  rw [← hp.types, List.length_map] at hle
  rw [hp.used]
  omega

/-- Fewer than `2 ^ 62` values in all are placed, and the position accounts for them. -/
theorem Position.Accounts.exists_placeItems (hp : p.Accounts items)
    {more : List (Item (Returned Value) Value)} (h : (items ++ more).length < 2 ^ 62) :
    ∃ q, twoRegister.placeItems g more p = .ok q ∧ q.Accounts (items ++ more) := by
  -- By induction on what is still to be placed. The account bounds the count at every place.
  induction more generalizing items p with
  | nil =>
    rw [List.append_nil]
    exact ⟨p, rfl, hp⟩
  | cons item more ih =>
    have hroom : p.used.toNat + 2 < 2 ^ 64 := by
      have hle := hp.used_le
      rw [List.length_append] at h
      omega
    obtain ⟨next, hnext⟩ := exists_place_eq_ok g item hroom
    rw [Convention.placeItems, hnext, List.append_cons]
    exact ih (hp.place hnext) (by rwa [← List.append_cons])

/-! ## Sessions -/

/-- After the commands, both positions of the session account for their histories, and the stack
pointer has not been read. -/
structure Accounted (commands : List (Command (Returned Value) Value))
    (s : Session Position) : Prop where
  position : s.position.Accounts (History.of commands).current
  saved : s.saved.Accounts (History.of commands).saved
  reads : s.reads = 0

variable {m : Machine} {commands : List (Command (Returned Value) Value)} {s : Session Position}
  {starts : ℕ}

theorem accounts_of_placeItems_start (h : items.length < 2 ^ 62)
    (hplace : twoRegister.placeItems g items .start = .ok p) : p.Accounts items := by
  obtain ⟨q, hq, haccounts⟩ := Position.accounts_start.exists_placeItems (g := g) h
  rw [hplace] at hq
  cases hq
  exact haccounts

theorem Accounted.of_follows (hfits : (commands.flatMap Command.items).length < 2 ^ 62)
    (hs : s.Follows twoRegister m (History.of commands) starts) : Accounted commands s where
  position := by
    have hle := (History.of_sublist commands).1.length_le
    exact accounts_of_placeItems_start (by omega) hs.position
  saved := by
    have hle := (History.of_sublist commands).2.length_le
    exact accounts_of_placeItems_start (by omega) hs.saved
  reads := hs.reads.trans (Nat.zero_mul _)

/-- As long as fewer than `2 ^ 62` values are placed in all, no command overflows. -/
theorem exists_step_eq_ok {command : Command (Returned Value) Value}
    (hfits : ((commands ++ [command]).flatMap Command.items).length < 2 ^ 62)
    (hs : s.Follows twoRegister m (History.of commands) starts) :
    ∃ entry, s.step twoRegister m command = .ok entry := by
  rw [List.flatMap_append, List.flatMap_singleton, List.length_append] at hfits
  have hlength : ((History.of commands).current ++ command.items).length < 2 ^ 62 := by
    have hle := (History.of_sublist commands).1.length_le
    rw [List.length_append]
    omega
  have haccounts := (Accounted.of_follows (by omega) hs).position
  obtain ⟨q, hq, -⟩ := haccounts.exists_placeItems (g := m.registers) hlength
  -- The values are placed from the position, so the command does not fail on them.
  cases hstep : s.step twoRegister m command with
  | error cause =>
    rw [Session.step_eq_error_iff, hq] at hstep
    cases hstep
  | ok entry => exact ⟨entry, rfl⟩

theorem ignoresRegisters : twoRegister.IgnoresRegisters :=
  ⟨fun _ _ => rfl, fun _ _ => rfl⟩

/-- The two-register convention gives every register to one value, and the machine plays no part,
as long as fewer than `2 ^ 62` values are placed in all. Wherever placing values leads from the
start, be it in the middle of a call, the position accounts for them: the arguments are there in
order, with growing register numbers below the count, and the rest of the count are two registers
for each wide result. A session answers all its commands, and both its positions account for what
has been placed since they were started, however often they were saved, restored or started anew in
between. The stack pointer is never read, and the answers are the same on every machine. -/
theorem session_accounts (m : Machine) (commands : List (Command (Returned Value) Value))
    (h : (commands.flatMap Command.items).length < 2 ^ 62) :
    let answers := (Session.start twoRegister m).run twoRegister m commands
    (∀ items, items.length < 2 ^ 62 → ∃ p,
      twoRegister.placeItems m.registers items (twoRegister.start m) = .ok p ∧ p.Accounts items) ∧
    Accounted [] (Session.start twoRegister m) ∧
    (∀ k < commands.length, ∃ entry,
      answers[k]? = some (.ok entry) ∧ Accounted (commands.take (k + 1)) entry.session) ∧
    ∀ m' : Machine, (Session.start twoRegister m').run twoRegister m' commands = answers := by
  intro answers
  -- Beginnings of the commands place no more than all of them.
  have hfits (k : ℕ) : ((commands.take k).flatMap Command.items).length < 2 ^ 62 :=
    ((List.take_sublist k commands).flatMap Command.items).length_le.trans_lt h
  refine ⟨fun items hitems => ?_, ?_, fun k hk => ?_, fun m' => ?_⟩
  · exact Position.accounts_start.exists_placeItems hitems
  · exact .of_follows (hfits 0) (Session.follows_start twoRegister m)
  · have hstep : ∀ j (hj : j < commands.length) (s : Session Position),
        s.Follows twoRegister m (History.of (commands.take j)) (startCount (commands.take j)) →
          ∃ entry, s.step twoRegister m commands[j] = .ok entry := by
      intro j hj s hs
      refine exists_step_eq_ok ?_ hs
      rw [← List.take_succ_eq_append_getElem hj]
      exact hfits (j + 1)
    obtain ⟨entry, hanswer, hfollows⟩ := Session.run_start_answered twoRegister m hstep hk
    exact ⟨entry, hanswer, .of_follows (hfits (k + 1)) hfollows⟩
  · have hstart : twoRegister.start m' = twoRegister.start m := rfl
    exact ignoresRegisters.run_congr hstart _ commands

/-- A call with a wide result is saved, a new start is undone by going back to it, and another wide
result comes between the second and the third argument. Of the seven registers handed out, four
hold no argument. -/
theorem session_accounts_restored :
    let commands : List (Command (Returned Value) Value) :=
      [.call false ⟨.value .wide, [.i32, .wide]⟩, .save, .start, .argument .i64, .restore,
        .result true (.value .wide), .furtherArguments ⟨.unit, [.i64]⟩]
    let answers := (Session.start twoRegister Machine.zero).run twoRegister Machine.zero commands
    (commands.flatMap Command.items).length < 2 ^ 62 ∧ ∃ entry,
      answers[6]? = some (.ok entry) ∧
      entry.session.position.assigned.map Prod.fst = [.i32, .wide, .i64] ∧
      (entry.session.position.assigned.map Prod.snd).Pairwise (· < ·) ∧
      entry.session.position.used.toNat = 7 ∧ entry.session.reads = 0 := by
  intro commands answers
  have hfits : (commands.flatMap Command.items).length < 2 ^ 62 := by decide
  obtain ⟨-, -, hanswered, -⟩ := session_accounts Machine.zero commands hfits
  obtain ⟨entry, hanswer, hposition, -, hreads⟩ := hanswered 6 (by decide)
  refine ⟨hfits, entry, hanswer, hposition.types, hposition.increasing, ?_, hreads⟩
  -- The count is read off the account: three arguments, and two wide results.
  have hlength := congrArg List.length hposition.types
  rw [List.length_map] at hlength
  rw [hposition.used, hlength]
  rfl

end TwoRegister

end CallLayout

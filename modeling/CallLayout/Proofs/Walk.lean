import CallLayout.Convention.Observer
import Mathlib.Data.Nat.Notation
import Mathlib.Order.Monotone.Basic

/-!
# Walks

A *walk* is the sequence of positions that placing some values goes through. Results and
arguments are placed by the same kind of step, so a call is a list of items, its result first,
and a placement that succeeds is a walk along that list.

The module introduces:

* `Item` and `Convention.placeItems`: values of either role, placed one after the other in any
  order;
* `Convention.Walk`: the positions that placing some items goes through.

A call is placed as its items are (`placeCall_eq_placeItems`), a placement that succeeds has a
walk (`exists_walk`) and ends where the walk does (`Walk.placeItems_eq`), and an observer changes
neither the positions nor the overflow (`map_fst_watchCall`).
-/

namespace CallLayout

/-- A value to place: a result or an argument of a type. -/
inductive Item (R A : Type) where
  /-- A result. -/
  | result (type : R)
  /-- An argument. -/
  | argument (type : A)
  deriving DecidableEq, Repr

/-- The values of a call, in the order in which they are placed. -/
def Signature.items {R A : Type} (s : Signature R A) : List (Item R A) :=
  .result s.result :: s.arguments.map .argument

@[simp]
theorem Signature.length_items {R A : Type} (s : Signature R A) :
    s.items.length = s.arguments.length + 1 := by
  simp [Signature.items]

/-- Calls that differ in the order of their arguments have the same values. -/
theorem Signature.items_perm {R A : Type} {s : Signature R A} {arguments : List A}
    (h : s.arguments.Perm arguments) : (Signature.items ⟨s.result, arguments⟩).Perm s.items :=
  (h.symm.map Item.argument).cons _

/-- A quantity that no further value makes smaller grows along the beginnings of some values. -/
theorem monotone_take {α : Type} {f : List α → ℕ} (h : ∀ items item, f items ≤ f (items ++ [item]))
    (items : List α) : Monotone fun k => f (items.take k) := by
  apply monotone_nat_of_le_succ
  intro k
  by_cases hk : k < items.length
  · rw [List.take_succ_eq_append_getElem hk]
    exact h _ _
  · rw [List.take_of_length_le (by omega), List.take_of_length_le (by omega)]

namespace Convention

variable {P R A σ : Type}

/-- The position after one value. -/
def place (c : Convention P R A) (registers : Registers) : Item R A → P → Except Overflow P
  | .result type, p => c.result registers type p
  | .argument type, p => c.argument registers type p

/-- The position after some values, placed one after the other. -/
def placeItems (c : Convention P R A) (registers : Registers) :
    List (Item R A) → P → Except Overflow P
  | [], p => .ok p
  | item :: items, p => do
    let p ← c.place registers item p
    c.placeItems registers items p

variable (c : Convention P R A) (registers : Registers)

theorem placeItems_singleton (item : Item R A) (p : P) :
    c.placeItems registers [item] p = c.place registers item p :=
  bind_pure _

theorem placeArguments_eq_placeItems (types : List A) (p : P) :
    c.placeArguments registers types p = c.placeItems registers (types.map .argument) p := by
  rw [placeArguments]
  induction types generalizing p with
  | nil => rfl
  | cons type types ih =>
    rw [List.foldlM_cons, List.map_cons, placeItems]
    exact bind_congr fun q => ih q

/-- A call is placed as its items are. -/
theorem placeCall_eq_placeItems (s : Signature R A) (p : P) :
    c.placeCall registers s p = c.placeItems registers s.items p :=
  bind_congr fun q => c.placeArguments_eq_placeItems registers s.arguments q

/-! ## The positions of a placement -/

/-- Placing the items one after the other goes through the positions `p 0`, `p 1`, and so on. -/
def Walk (items : List (Item R A)) (p : ℕ → P) : Prop :=
  ∀ k (h : k < items.length), c.place registers items[k] (p k) = .ok (p (k + 1))

variable {c registers}

theorem walk_cons_iff {item : Item R A} {items : List (Item R A)} {p : ℕ → P} :
    c.Walk registers (item :: items) p ↔
      c.place registers item (p 0) = .ok (p 1) ∧
        c.Walk registers items fun k => p (k + 1) := by
  constructor
  · intro h
    exact ⟨h 0 (Nat.succ_pos _), fun k hk => h (k + 1) (Nat.succ_lt_succ hk)⟩
  · rintro ⟨hhead, htail⟩ k hk
    cases k with
    | zero => exact hhead
    | succ k => exact htail k (Nat.lt_of_succ_lt_succ hk)

/-- A walk along some items is one along any beginning of them. -/
theorem Walk.take {items : List (Item R A)} {p : ℕ → P} (h : c.Walk registers items p) (n : ℕ) :
    c.Walk registers (items.take n) p := by
  intro k hk
  rw [List.getElem_take]
  exact h k (by rw [List.length_take] at hk; omega)

/-- A walk ends where the placement of its items does. -/
theorem Walk.placeItems_eq {items : List (Item R A)} {p : ℕ → P}
    (h : c.Walk registers items p) :
    c.placeItems registers items (p 0) = .ok (p items.length) := by
  induction items generalizing p with
  | nil => rfl
  | cons item items ih =>
    obtain ⟨hhead, htail⟩ := walk_cons_iff.mp h
    rw [placeItems, hhead]
    exact ih htail

/-- Walks along the same items from the same position go through the same positions. -/
theorem Walk.unique {items : List (Item R A)} {p q : ℕ → P} (hp : c.Walk registers items p)
    (hq : c.Walk registers items q) (hstart : p 0 = q 0) {k : ℕ} (hk : k ≤ items.length) :
    p k = q k := by
  -- Both walks, cut off after `k` steps, end where the same placement does.
  have hend := (hp.take k).placeItems_eq
  rw [hstart, (hq.take k).placeItems_eq, List.length_take_of_le hk] at hend
  exact (Except.ok.inj hend).symm

/-- A placement that succeeds goes through the positions of a walk. -/
theorem exists_walk {items : List (Item R A)} {p q : P}
    (h : c.placeItems registers items p = .ok q) :
    ∃ w : ℕ → P, c.Walk registers items w ∧ w 0 = p := by
  induction items generalizing p with
  | nil => exact ⟨fun _ => p, fun k hk => absurd hk (Nat.not_lt_zero k), rfl⟩
  | cons item items ih =>
    rw [placeItems] at h
    cases hitem : c.place registers item p with
    | error cause =>
      rw [hitem] at h
      cases h
    | ok next =>
      rw [hitem] at h
      obtain ⟨w, hwalk, hstart⟩ := ih h
      -- The walk along the rest starts at `next`; `p` is put in front of it.
      refine ⟨fun | 0 => p | k + 1 => w k, walk_cons_iff.mpr ⟨?_, hwalk⟩, rfl⟩
      change c.place registers item p = .ok (w 0)
      rw [hitem, hstart]

/-! ## Observed placement -/

section Observed

/-- An observed result is placed where an unobserved one is. -/
theorem map_fst_watchResult [GuestType R] (observe : Observer P σ) (type : R) (s : P × σ) :
    (c.watchResult observe registers type s).map Prod.fst = c.result registers type s.1 := by
  rw [watchResult]
  cases c.result registers type s.1 <;> rfl

variable [GuestType A]

/-- Observed arguments are placed where unobserved ones are. -/
theorem map_fst_watchNumbered (observe : Observer P σ) (index : ℕ) (types : List A)
    (s : P × σ) :
    (c.watchNumbered observe registers index types s).map Prod.fst =
      c.placeArguments registers types s.1 := by
  induction types generalizing index s with
  | nil => rfl
  | cons type types ih =>
    rw [watchNumbered, placeArguments, List.foldlM_cons]
    cases hplace : c.argument registers type s.1 with
    | error cause => rfl
    | ok p => exact ih (index + 1) (p, observe (.argument index) (GuestType.text type) p s.2)

/-- An observed call is placed where an unobserved one is, and overflows where it does. -/
theorem map_fst_watchCall [GuestType R] (observe : Observer P σ) (signature : Signature R A)
    (s : P × σ) :
    (c.watchCall observe registers signature s).map Prod.fst =
      c.placeCall registers signature s.1 := by
  rw [watchCall, watchResult, placeCall]
  cases hplace : c.result registers signature.result s.1 with
  | error cause => rfl
  | ok p => exact map_fst_watchNumbered observe 0 signature.arguments _

end Observed

end Convention

end CallLayout

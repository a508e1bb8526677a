import CallLayout.Proofs.Aapcs32.Misalignment
import Mathlib.Data.List.Forall2

/-!
# Larger calls under the Arm convention

A call that has more or larger values takes no fewer registers and no less stack, although a value
may be padded in the smaller call and fit exactly in the larger one. The reason is that every move
of the cursor is monotone: of two cursors, the one behind does not overtake the other one
(`advance_mono`), so a cursor that has been put ahead once, by a value inserted or made larger,
stays ahead. `Enlarges` lists the changes that a call may undergo, and `usage_monotone` compares
the calls before and after one of them.
-/

namespace CallLayout.Aapcs32

open Word

/-! ## One value -/

theorem alignedFrom_mono (phase : ℕ) {v w : ℕ} (h : v ≤ w) :
    alignedFrom phase v ≤ alignedFrom phase w := by
  -- An aligned place from `w` on is one from `v` on.
  obtain ⟨hle, hdvd⟩ := (isLeast_alignedFrom phase w).1
  exact (isLeast_alignedFrom phase v).2 ⟨h.trans hle, hdvd⟩

theorem advanceDoubleWord_mono (phase : ℕ) {v w : ℕ} (h : v ≤ w) :
    advanceDoubleWord phase v ≤ advanceDoubleWord phase w := by
  unfold advanceDoubleWord
  split <;> split
  next => exact Nat.add_le_add_right (roundUp_mono h 8) 8
  next =>
    have hle := (isLeast_alignedFrom phase (max w 16)).1.1
    rw [roundUp]
    omega
  next => omega
  next => exact Nat.add_le_add_right (alignedFrom_mono phase (by omega)) 8

/-- Of two cursors, the one behind does not overtake the other one. -/
theorem advance_mono (phase : ℕ) (item : Item ResultType ValueType) {v w : ℕ} (h : v ≤ w) :
    advance phase item v ≤ advance phase item w := by
  match item with
  | .result .unit | .result (.value (.scalar _)) => exact h
  | .result (.value (.blob size)) =>
    rw [advance, advance]
    split <;> omega
  | .argument (.scalar .u64) | .argument (.scalar .i64) => exact advanceDoubleWord_mono phase h
  | .argument (.scalar .u8) | .argument (.scalar .u16) | .argument (.scalar .u32)
  | .argument (.scalar .i32) | .argument (.scalar .guestPtr) | .argument (.blob _) =>
    exact Nat.add_le_add_right h _

/-- Wherever the cursor stands, the first value moves it at most as far as the second one. -/
def TakesAtMost (item item' : Item ResultType ValueType) : Prop :=
  ∀ phase v, advance phase item v ≤ advance phase item' v

instance : Std.Refl TakesAtMost :=
  ⟨fun _ _ _ => Nat.le_refl _⟩

theorem takesAtMost_blob {size size' : UInt64} (h : size ≤ size') :
    TakesAtMost (.argument (.blob size)) (.argument (.blob size')) := by
  intro phase v
  exact Nat.add_le_add_left (roundUp_mono (UInt64.le_iff_toNat_le.mp h) 4) v

theorem takesAtMost_doubleWord {word double : Scalar}
    (hword : ¬ IsDoubleWord (.argument (.scalar word)))
    (hdouble : IsDoubleWord (.argument (.scalar double))) :
    TakesAtMost (.argument (.scalar word)) (.argument (.scalar double)) := by
  intro phase v
  rw [advance_of_isDoubleWord hdouble]
  have hle := add_eight_le_advanceDoubleWord phase v
  match word with
  | .u64 | .i64 => exact absurd trivial hword
  | .u8 | .u16 | .u32 | .i32 | .guestPtr =>
    change v + 4 ≤ _
    omega

/-- No result takes more than one that is returned in memory. -/
theorem takesAtMost_result (result : ResultType) {size : UInt64} (h : 4 < size) :
    TakesAtMost (.result result) (.result (.value (.blob size))) := by
  intro phase v
  have hsize : 4 < size.toNat := UInt64.lt_iff_toNat_lt.mp h
  rw [advance, if_pos hsize]
  cases result with
  | unit => exact Nat.le_add_right v 4
  | value type =>
    cases type with
    | scalar type => exact Nat.le_add_right v 4
    | blob size' =>
      rw [advance]
      split <;> omega

/-! ## The run -/

theorem le_foldl_advance (phase v : ℕ) (items : List (Item ResultType ValueType)) :
    v ≤ items.foldl (fun v item => advance phase item v) v := by
  induction items generalizing v with
  | nil => exact Nat.le_refl v
  | cons item items ih => exact (le_advance phase v item).trans (ih _)

section Run

variable {items items' : List (Item ResultType ValueType)}
  (h : List.SublistForall₂ TakesAtMost items items')
include h

/-- A cursor that is not behind stays so if it goes over the same values or larger ones, perhaps
with others between them. -/
theorem foldl_advance_le (phase : ℕ) {v w : ℕ} (hvw : v ≤ w) :
    items.foldl (fun v item => advance phase item v) v ≤
      items'.foldl (fun v item => advance phase item v) w := by
  induction h generalizing v w with
  | nil => exact hvw.trans (le_foldl_advance phase w _)
  | cons hitem _ ih => exact ih ((hitem phase v).trans (advance_mono phase _ hvw))
  | cons_right _ ih => exact ih (hvw.trans (le_advance phase w _))

theorem cursor_le_cursor (phase : ℕ) : cursor phase items ≤ cursor phase items' :=
  foldl_advance_le h phase (Nat.le_refl 0)

end Run

/-- The usage at the cursor behind is at most that at the other one, if the stack bytes there fit
a word. -/
theorem usage_ofCursor_mono (base : UInt64) {v w : ℕ} (h : v ≤ w) (hfits : w - 16 < 2 ^ 64) :
    aapcs32.registersUsed (.ofCursor base v) ≤ aapcs32.registersUsed (.ofCursor base w) ∧
      aapcs32.stackUsed (.ofCursor base v) ≤ aapcs32.stackUsed (.ofCursor base w) := by
  have hle : v - 16 ≤ w - 16 := Nat.sub_le_sub_right h 16
  refine ⟨registersUsed_ofCursor_mono base h, UInt64.le_iff_toNat_le.mpr ?_⟩
  rwa [stackUsed_ofCursor, stackUsed_ofCursor, UInt64.toNat_ofNat_of_lt' (hle.trans_lt hfits),
    UInt64.toNat_ofNat_of_lt' hfits]

/-! ## Calls -/

/-- The second call arises from the first one by one of the changes that make a call larger. -/
inductive Enlarges : Signature ResultType ValueType → Signature ResultType ValueType → Prop where
  /-- One more argument, at any place. -/
  | insert (result : ResultType) (before after : List ValueType) (type : ValueType) :
      Enlarges ⟨result, before ++ after⟩ ⟨result, before ++ type :: after⟩
  /-- An aggregate of at least the size in place of an aggregate. -/
  | aggregate (result : ResultType) (before after : List ValueType) {size size' : UInt64} :
      size ≤ size' →
        Enlarges ⟨result, before ++ .blob size :: after⟩ ⟨result, before ++ .blob size' :: after⟩
  /-- A 64-bit scalar in place of a word. -/
  | doubleWord (result : ResultType) (before after : List ValueType) {word double : Scalar} :
      ¬ IsDoubleWord (.argument (.scalar word)) → IsDoubleWord (.argument (.scalar double)) →
        Enlarges ⟨result, before ++ .scalar word :: after⟩
          ⟨result, before ++ .scalar double :: after⟩
  /-- A result that is returned in memory in place of any other one. -/
  | result (result : ResultType) (arguments : List ValueType) {size : UInt64} :
      4 < size → Enlarges ⟨result, arguments⟩ ⟨.value (.blob size), arguments⟩

/-- Replacing one argument by a larger one makes the values of a call larger. -/
theorem sublistForall₂_items_replace (result : ResultType) (before after : List ValueType)
    {type type' : ValueType} (h : TakesAtMost (.argument type) (.argument type')) :
    List.SublistForall₂ TakesAtMost (Signature.items ⟨result, before ++ type :: after⟩)
      (Signature.items ⟨result, before ++ type' :: after⟩) := by
  refine List.sublistForall₂_iff.mpr ⟨_, ?_, List.Sublist.refl _⟩
  simp only [Signature.items, List.map_append, List.map_cons]
  exact .cons (refl _) (List.rel_append (List.forall₂_refl _) (.cons h (List.forall₂_refl _)))

theorem Enlarges.sublistForall₂_items {s s' : Signature ResultType ValueType}
    (h : Enlarges s s') : List.SublistForall₂ TakesAtMost s.items s'.items := by
  cases h with
  | insert result before after type =>
    refine List.Sublist.sublistForall₂ (.cons_cons _ (List.Sublist.map _ ?_))
    exact List.Sublist.append_left (List.sublist_cons_self type after) before
  | aggregate result before after hsize =>
    exact sublistForall₂_items_replace result before after (takesAtMost_blob hsize)
  | doubleWord result before after hword hdouble =>
    exact sublistForall₂_items_replace result before after (takesAtMost_doubleWord hword hdouble)
  | result result arguments hsize =>
    exact .cons (takesAtMost_result result hsize) (refl _)

/-- The Arm convention uses no less for a larger call. If a call arises from another one by
inserting an argument, by replacing an aggregate by one that is not smaller or a word by a 64-bit
scalar, or by returning an aggregate of more than a word, and its stack bytes fit a word, then it
ends with at least as many registers and at least as many stack bytes handed out as the other one,
and its report says so. -/
theorem usage_monotone (m : Machine) {s s' : Signature ResultType ValueType} (h : Enlarges s s')
    (hfits : cursor (phase m) s'.items - 16 < 2 ^ 64) :
    (∃ p p', aapcs32.placeCall m.registers s (aapcs32.start m) = .ok p ∧
      aapcs32.placeCall m.registers s' (aapcs32.start m) = .ok p' ∧
      aapcs32.registersUsed p ≤ aapcs32.registersUsed p' ∧
      aapcs32.stackUsed p ≤ aapcs32.stackUsed p') ∧
    ∃ r r', aapcs32.describe m s = .ok r ∧ aapcs32.describe m s' = .ok r' ∧
      r.registersUsed ≤ r'.registersUsed ∧ r.stackUsed ≤ r'.stackUsed := by
  have hcursor := cursor_le_cursor h.sublistForall₂_items (phase m)
  obtain ⟨hregisters, hstack⟩ := usage_ofCursor_mono (stackBase m) hcursor hfits
  have hplace := placeCall_start m s
  have hplace' := placeCall_start m s'
  obtain ⟨r, hr, hused, hbytes⟩ := MeteredConvention.exists_describe_of_placeCall hplace
  obtain ⟨r', hr', hused', hbytes'⟩ := MeteredConvention.exists_describe_of_placeCall hplace'
  refine ⟨⟨_, _, hplace, hplace', hregisters, hstack⟩, r, r', hr, hr', ?_, ?_⟩
  · rwa [hused, hused']
  · rwa [hbytes, hbytes']

/-- On a stack four bytes behind a multiple of eight, the scalar is padded behind the aggregate
alone and fits exactly behind one more word, so that both calls end at the same place. -/
theorem usage_monotone_exact_fit :
    let m : Machine := { Machine.zero with stackPointer := 0x8004 }
    let s : Signature ResultType ValueType := ⟨.unit, [.blob 16, .scalar .u64]⟩
    let s' : Signature ResultType ValueType := ⟨.unit, [.blob 16, .scalar .u8, .scalar .u64]⟩
    Enlarges s s' ∧ cursor (phase m) s'.items - 16 < 2 ^ 64 ∧
      ∃ r r', aapcs32.describe m s = .ok r ∧ aapcs32.describe m s' = .ok r' ∧
        r.registersUsed ≤ r'.registersUsed ∧ r.stackUsed ≤ r'.stackUsed ∧
        cursor (phase m) s.items = cursor (phase m) s'.items := by
  intro m s s'
  have henlarges : Enlarges s s' := .insert .unit [.blob 16] [.scalar .u64] (.scalar .u8)
  have hfits : cursor (phase m) s'.items - 16 < 2 ^ 64 := by decide
  obtain ⟨-, r, r', hr, hr', hregisters, hstack⟩ := usage_monotone m henlarges hfits
  exact ⟨henlarges, hfits, r, r', hr, hr', hregisters, hstack, by decide⟩

end CallLayout.Aapcs32

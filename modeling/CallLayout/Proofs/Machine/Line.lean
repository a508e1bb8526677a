import CallLayout.Machine.Reader
import CallLayout.Proofs.Numeral
import CallLayout.Proofs.Text.Line

/-!
# The lines of a machine state

Which lines a machine state may have, and what is wrong with any other line, as relations on a
line without the blanks around it:

* `IsEntry`: the line is neither empty nor a comment;
* `Names` and `Assigns`: the name of a target, and a line that assigns a value to it;
* `RejectsName` and `Rejects`: what is wrong with a name that no target has, and with a line that
  assigns nothing, in the words of the error.

Reading a line decides them: it gives an assignment exactly if the line assigns it
(`readAssignment_eq_ok_iff`), and otherwise it fails with the one text that the line is rejected
with (`rejects_iff`).
-/

namespace CallLayout

namespace Machine

open Numeral (Denotes)
open Text (CutsAt trim)

/-! ## The grammar of a line -/

/-- The line is neither empty nor a comment. -/
def IsEntry (line : List Char) : Prop :=
  line ≠ [] ∧ line.head? ≠ some '#'

instance (line : List Char) : Decidable (IsEntry line) :=
  inferInstanceAs (Decidable (_ ∧ _))

/-- The names of the targets. A register's number is a decimal numeral, so that a register has
many names. -/
inductive Names : List Char → Target → Prop where
  | stackPointer : Names ['s', 'p'] .stackPointer
  | register {number : List Char} {index : Fin registerCount} :
      Denotes 10 number index → Names ('r' :: number) (.register index)

/-- The line assigns a value to a target: the target's name stands before its first equals sign,
and the value behind it. -/
def Assigns (line : List Char) (a : Assignment) : Prop :=
  ∃ name text, CutsAt '=' line name text ∧ Value.read (String.ofList text) = .ok a.value ∧
    Names (trim name) a.target

/-- What is wrong with a name that no target has. -/
inductive RejectsName : List Char → String → Prop where
  | unknownRegister {number : List Char} :
      (¬ ∃ n < UInt64.size, Denotes 10 number n) →
      RejectsName ('r' :: number) ("unknown register '" ++ String.ofList ('r' :: number) ++ "'")
  | registerOutOfRange {number : List Char} {n : ℕ} :
      Denotes 10 number n → registerCount ≤ n → n < UInt64.size →
      RejectsName ('r' :: number) ("Register index " ++ Numeral.decimal n ++ " out of range")
  | unknownName {name : List Char} :
      name ≠ ['s', 'p'] → name.head? ≠ some 'r' →
      RejectsName name ("unknown name '" ++ String.ofList name ++ "', expected 'sp' or 'rN'")

/-- What is wrong with a line that assigns nothing. A line may be wrong in several ways; the value
is looked at before the name. -/
inductive Rejects (line : List Char) : String → Prop where
  | noAssignment : '=' ∉ line → Rejects line "expected 'name = value'"
  | invalidValue {name text : List Char} {e : Error} :
      CutsAt '=' line name text → Value.read (String.ofList text) = .error e →
      Rejects line ("Invalid value '" ++ String.ofList (trim text) ++
        "', expected a decimal or 0x-prefixed hex number")
  | name {name text : List Char} {value : UInt64} {message : String} :
      CutsAt '=' line name text → Value.read (String.ofList text) = .ok value →
      RejectsName (trim name) message → Rejects line message

/-! ## Reading a name -/

section Name

variable {name : List Char} {target : Target} {message : String}

theorem readTarget_of_names (h : Names name target) : readTarget name = .ok target := by
  cases h with
  | stackPointer => rfl
  | @register number index hnumber =>
    have hfits : (index : ℕ) < UInt64.size := Nat.lt_trans index.isLt (by decide)
    simp only [readTarget, Numeral.word?_of_denotes hnumber hfits,
      UInt64.toNat_ofNat_of_lt' hfits, index.isLt, dite_true]

theorem readTarget_of_rejectsName (h : RejectsName name message) :
    ∃ cause, readTarget name = .error cause ∧ message = cause.message := by
  cases h with
  | @unknownRegister number hnumber =>
    refine ⟨.unknownRegister (String.ofList ('r' :: number)), ?_, rfl⟩
    simp only [readTarget, Numeral.word?_eq_none_iff.mpr hnumber]
  | @registerOutOfRange number n hnumber hlarge hfits =>
    refine ⟨.registerOutOfRange n, ?_, rfl⟩
    simp only [readTarget, Numeral.word?_of_denotes hnumber hfits,
      UInt64.toNat_ofNat_of_lt' hfits, Nat.not_lt.mpr hlarge, dite_false]
  | unknownName hstackPointer hregister =>
    refine ⟨.unknownName (String.ofList name), ?_, rfl⟩
    fun_cases readTarget name with
    | case1 => exact absurd rfl hstackPointer
    | case2 | case3 | case4 => exact absurd rfl hregister
    | case5 => rfl

/-- A name that is read has a target, and one that is not is wrong for the reason given. -/
theorem readTarget_cases (name : List Char) :
    (∃ target, readTarget name = .ok target ∧ Names name target) ∨
      ∃ cause, readTarget name = .error cause ∧ RejectsName name cause.message := by
  fun_cases readTarget name with
  | case1 => exact .inl ⟨_, rfl, .stackPointer⟩
  | case2 number hnone =>
    exact .inr ⟨_, rfl, .unknownRegister (Numeral.word?_eq_none_iff.mp hnone)⟩
  | case3 number index hsome hlt =>
    refine .inl ⟨_, rfl, .register ?_⟩
    exact Numeral.word?_eq_some_iff.mp hsome
  | case4 number index hsome hlarge =>
    have hnumber := Numeral.word?_eq_some_iff.mp hsome
    exact .inr ⟨_, rfl, .registerOutOfRange hnumber (Nat.not_lt.mp hlarge) index.toNat_lt⟩
  | case5 name hstackPointer hregister =>
    refine .inr ⟨_, rfl, .unknownName hstackPointer fun hhead => ?_⟩
    obtain ⟨number, rfl⟩ := List.head?_eq_some_iff.mp hhead
    exact hregister number rfl

end Name

/-! ## Reading a value -/

section Value

variable {text : List Char} {value : UInt64}

theorem readValue_eq_ok_iff :
    readValue text = .ok value ↔ Value.read (String.ofList text) = .ok value := by
  rw [readValue, Value.read, String.toList_ofList]
  cases Value.ofChars? text <;> simp

theorem readValue_eq_error_iff {cause : LineError} :
    readValue text = .error cause ↔
      (∃ e, Value.read (String.ofList text) = .error e) ∧
        cause = .invalidValue (String.ofList (trim text)) := by
  rw [readValue, Value.read, String.toList_ofList]
  cases Value.ofChars? text <;> simp [eq_comm]

end Value

/-! ## Reading a line -/

section Line

variable {line name text : List Char} {a : Assignment} {message : String}

theorem readAssignment_of_cutsAt (h : CutsAt '=' line name text) :
    readAssignment line = (do
      let value ← readValue text
      let target ← readTarget (trim name)
      .ok ⟨target, value⟩) := by
  rw [readAssignment, Text.cut?_eq_some_iff.mpr h]

theorem readAssignment_of_assigns (h : Assigns line a) : readAssignment line = .ok a := by
  obtain ⟨name, text, hcut, hvalue, hname⟩ := h
  rw [readAssignment_of_cutsAt hcut, readValue_eq_ok_iff.mpr hvalue, readTarget_of_names hname]
  rfl

theorem readAssignment_of_rejects (h : Rejects line message) :
    ∃ cause, readAssignment line = .error cause ∧ message = cause.message := by
  cases h with
  | noAssignment hnotMem =>
    refine ⟨.noAssignment, ?_, rfl⟩
    rw [readAssignment, Text.cut?_eq_none_iff.mpr hnotMem]
  | @invalidValue name text e hcut hvalue =>
    refine ⟨.invalidValue (String.ofList (trim text)), ?_, rfl⟩
    rw [readAssignment_of_cutsAt hcut, readValue_eq_error_iff.mpr ⟨⟨e, hvalue⟩, rfl⟩]
    rfl
  | name hcut hvalue hname =>
    obtain ⟨cause, hread, hmessage⟩ := readTarget_of_rejectsName hname
    refine ⟨cause, ?_, hmessage⟩
    rw [readAssignment_of_cutsAt hcut, readValue_eq_ok_iff.mpr hvalue, hread]
    rfl

/-- A line that is read assigns what was read, and one that is not is wrong for the reason
given. -/
theorem readAssignment_cases (line : List Char) :
    (∃ a, readAssignment line = .ok a ∧ Assigns line a) ∨
      ∃ cause, readAssignment line = .error cause ∧ Rejects line cause.message := by
  by_cases hmem : '=' ∈ line
  · obtain ⟨name, text, hline, hnotMem⟩ := List.eq_append_cons_of_mem hmem
    have hcut : CutsAt '=' line name text := ⟨hline, hnotMem⟩
    rw [readAssignment_of_cutsAt hcut]
    cases hvalue : readValue text with
    | error cause =>
      obtain ⟨⟨e, he⟩, rfl⟩ := readValue_eq_error_iff.mp hvalue
      exact .inr ⟨_, rfl, .invalidValue hcut he⟩
    | ok value =>
      rw [readValue_eq_ok_iff] at hvalue
      -- The value is right, so that the name decides.
      obtain ⟨target, hread, hname⟩ | ⟨cause, hread, hname⟩ := readTarget_cases (trim name)
      · exact .inl ⟨⟨target, value⟩, by rw [hread]; rfl, name, text, hcut, hvalue, hname⟩
      · exact .inr ⟨cause, by rw [hread]; rfl, .name hcut hvalue hname⟩
  · obtain ⟨cause, hread, hmessage⟩ := readAssignment_of_rejects (.noAssignment hmem)
    exact .inr ⟨cause, hread, hmessage ▸ .noAssignment hmem⟩

/-- A line gives an assignment exactly if it assigns it. -/
theorem readAssignment_eq_ok_iff : readAssignment line = .ok a ↔ Assigns line a := by
  refine ⟨fun h => ?_, readAssignment_of_assigns⟩
  obtain ⟨_, hread, hassigns⟩ | ⟨_, hread, -⟩ := readAssignment_cases line
  · rw [h] at hread
    cases hread
    exact hassigns
  · rw [h] at hread
    cases hread

/-- A line that gives none is rejected with the text of the cause, and with no other. -/
theorem rejects_iff : Rejects line message ↔
    ∃ cause, readAssignment line = .error cause ∧ message = cause.message := by
  refine ⟨readAssignment_of_rejects, ?_⟩
  rintro ⟨cause, h, rfl⟩
  obtain ⟨_, hread, -⟩ | ⟨_, hread, hrejects⟩ := readAssignment_cases line
  · rw [h] at hread
    cases hread
  · rw [h] at hread
    cases hread
    exact hrejects

/-- A comment assigns nothing, whatever it holds. -/
theorem Assigns.isEntry (h : Assigns line a) : IsEntry line := by
  obtain ⟨name, text, ⟨rfl, -⟩, -, hname⟩ := h
  refine ⟨by simp, fun hhead => ?_⟩
  -- The name would begin with the mark of a comment, which no trimming takes off.
  cases name with
  | nil => simp at hhead
  | cons c name =>
    obtain rfl : c = '#' := by simpa using hhead
    rw [Text.trim_cons_of_not_isBlank (by decide)] at hname
    cases hname

theorem Assigns.unique {b : Assignment} (ha : Assigns line a) (hb : Assigns line b) : a = b := by
  rw [← readAssignment_eq_ok_iff] at ha hb
  exact Except.ok.inj (ha.symm.trans hb)

end Line

end Machine

end CallLayout

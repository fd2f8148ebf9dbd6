import Commissioning.Fault.Basic
import Commissioning.Proofs.Logged
import Commissioning.Proofs.Value.Entries
import Mathlib.Data.Nat.Digits.Defs

/-!
What can be shown. Integers are written with the same number of digits with which they are read, so
whatever was read from a text can be shown again, and only what is computed or made by a program
can be too long. A cause that shows something too long is raised as the mismatch of that value:

    cause ──┬── its values can be shown ──▶ the cause
            └── one cannot ───────────────▶ a mismatch, unwritable
-/
namespace Commissioning

/-! ### Integers -/

namespace Number
open Text

theorem isWritable_of_lt {n : Int} {k : Nat} (h : n.natAbs < 10 ^ k) (hk : 0 < k)
    (hlimit : k ≤ digitLimit) : isWritable n :=
  decide_eq_true ((Nat.toDigits_length 10 n.natAbs k hk h).trans hlimit)

/-- A number of two octets can be written. -/
theorem isWritable_of_natAbs_le {n : Int} (h : n.natAbs ≤ 65535) : isWritable n :=
  isWritable_of_lt (k := 5) (h.trans_lt (by decide)) (by decide) (by decide)

theorem length_toDigits_power (k : Nat) : (Nat.toDigits 10 (10 ^ k)).length = k + 1 := by
  induction k with
  | zero => decide
  | succ k ih =>
    have happend := Nat.toDigits_append_toDigits (b := 10) (n := 10 ^ k) (d := 0) (by decide)
      (Nat.pow_pos (by decide)) (by decide)
    have hpower : 10 * 10 ^ k + 0 = 10 ^ (k + 1) := by rw [Nat.add_zero, Nat.pow_succ']
    rw [← hpower, ← happend, List.length_append, ih]
    rfl

/-- A power of ten beyond the limit cannot be written. -/
theorem not_isWritable_power {k : Nat} (hk : digitLimit ≤ k) :
    isWritable ((10 ^ k : Nat) : Int) = false := by
  rw [isWritable, Int.natAbs_natCast, length_toDigits_power]
  exact decide_eq_false (by omega)

theorem digitValue?_lt {c : Char} {d : Nat} (h : digitValue? c = some d) : d < 10 := by
  obtain ⟨z, hz, rfl⟩ := Option.map_eq_some_iff.mp h
  have hrange := List.find?_some hz
  rw [Bool.and_eq_true, decide_eq_true_iff, decide_eq_true_iff] at hrange
  omega

theorem digitsValue_lt (cs : List Char) : digitsValue cs < 10 ^ cs.length := by
  have hfold (m k : Nat) (hm : m < 10 ^ k) :
      cs.foldl (fun n c => 10 * n + (digitValue? c).getD 0) m < 10 ^ (k + cs.length) := by
    induction cs generalizing m k with
    | nil => exact hm
    | cons c cs ih =>
      have hdigit : (digitValue? c).getD 0 < 10 := by
        cases hc : digitValue? c with
        | none => decide
        | some d => exact digitValue?_lt hc
      have hnext : 10 * m + (digitValue? c).getD 0 < 10 ^ (k + 1) := by
        rw [Nat.pow_succ']
        omega
      rw [List.foldl_cons, List.length_cons, Nat.add_comm cs.length 1, ← Nat.add_assoc]
      exact ih _ _ hnext
  have hempty := hfold 0 0 Nat.one_pos
  rwa [Nat.zero_add] at hempty

/-- What is read from a text can be written. -/
theorem isWritable_of_readInteger {s : List Char} {n : Int} (h : readInteger s = .ok n) :
    isWritable n := by
  unfold readInteger at h
  split at h
  next negative body hsign =>
  split at h
  · cases h
  · next digits hdigits =>
    split at h
    · cases h
    · next hlimit =>
      split at h
      · cases h
      · next hwhole =>
        have hpos : 0 < digits.length := by
          cases digits with
          | nil => exact absurd rfl hwhole
          | cons c cs => exact Nat.succ_pos _
        have habs : n.natAbs = digitsValue digits := by
          cases h
          cases negative
          · exact Int.natAbs_natCast _
          · exact (Int.natAbs_neg _).trans (Int.natAbs_natCast _)
        have hvalue := digitsValue_lt digits
        rw [← habs] at hvalue
        exact isWritable_of_lt hvalue hpos (Nat.le_of_not_lt hlimit)

end Number

/-! ### Values -/

namespace Value

theorem areShowable_iff {items : List Value} : areShowable items ↔ ∀ v ∈ items, v.isShowable := by
  induction items with
  | nil => simp [areShowable]
  | cons item items ih => simp [areShowable, ih]

theorem areShowableUnder_iff {entries : Entries} :
    areShowableUnder entries ↔ ∀ e ∈ entries, e.2.isShowable := by
  induction entries with
  | nil => simp [areShowableUnder]
  | cons e entries ih => simp [areShowableUnder, ih]

/-- A value as it is read from a text, in which its integers are written. -/
inductive FromText : Value → Prop where
  | null : FromText .null
  | bool (b : Bool) : FromText (.bool b)
  | int {s : List Char} {n : Int} (read : Number.readInteger s = .ok n) : FromText (.int n)
  | float (x : Binary64) : FromText (.float x)
  | str (s : String) : FromText (.str s)
  | list {items : List Value} (each : ∀ v ∈ items, FromText v) : FromText (.list items)
  | dict {entries : Entries} (each : ∀ e ∈ entries, FromText e.2) : FromText (.dict entries)

/-- What was read can be shown. -/
theorem FromText.isShowable {v : Value} (h : v.FromText) : v.isShowable := by
  induction h with
  | int hread => exact Number.isWritable_of_readInteger hread
  | list _ ih => exact areShowable_iff.mpr ih
  | dict _ ih => exact areShowableUnder_iff.mpr ih
  | _ => rfl

end Value

namespace Fault
variable {e : Fault}

theorem raised_of_isShowable (h : e.isShowable) : e.raised = e := if_pos h

theorem raised_of_not_isShowable (h : e.isShowable = false) :
    e.raised = .mismatch .unwritable := by
  rw [raised, h]
  rfl

/-- Raising a cause gives the cause itself, or the mismatch of a value that is too long. -/
theorem raised_cases (e : Fault) :
    (e.raised = e ∧ e.isShowable) ∨ (e.raised = .mismatch .unwritable ∧ e.isShowable = false) := by
  cases h : e.isShowable with
  | true => exact .inl ⟨raised_of_isShowable h, rfl⟩
  | false => exact .inr ⟨raised_of_not_isShowable h, rfl⟩

/-- What holds of a cause and of every mismatch holds of what the cause is raised as. -/
theorem raised_induction {P : Fault → Prop} (he : P e) (hmismatch : ∀ m, P (.mismatch m)) :
    P e.raised := by
  rcases raised_cases e with ⟨h, -⟩ | ⟨h, -⟩
  · rw [h]
    exact he
  · rw [h]
    exact hmismatch _

end Fault

end Commissioning

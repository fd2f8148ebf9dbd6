import Commissioning.Covering.Options
import Mathlib.Data.Int.Bitwise

/-!
The calibration bit of a mode is its bit 1. Clearing it is `mode & ~2`, so every other bit stays, and
setting it is `mode | 2`; both hold for modes of any sign.

        bit   … 3  2  1  0
        mode  … d  c  b  a     b = calibration bit
-/
namespace Commissioning.Covering

/-- A mode by its two low bits and the rest. -/
theorem exists_bits (mode : Int) : ∃ a b k, mode = Int.bit a (Int.bit b k) :=
  ⟨mode.bodd, mode.div2.bodd, mode.div2.div2, by rw [Int.bit_decomp, Int.bit_decomp]⟩

theorem hasBit_bits (a b : Bool) (k : Int) : hasBit (Int.bit a (Int.bit b k)) = b := by
  have h : Int.bit a (Int.bit b k) / 2 % 2 = if b then 1 else 0 := by
    rw [Int.bit_val, Int.bit_val]
    cases a <;> cases b <;> simp only [cond_true, cond_false] <;> grind
  rw [hasBit, calibrationBit, h]
  cases b <;> rfl

theorem hasBit_eq_testBit (mode : Int) : hasBit mode = mode.testBit 1 := by
  obtain ⟨a, b, k, rfl⟩ := exists_bits mode
  rw [hasBit_bits, Int.testBit_bit_succ, Int.testBit_bit_zero]

theorem ldiff_zero (k : Int) : Int.ldiff k 0 = k := by
  cases k with
  | ofNat n => exact congrArg Int.ofNat (Nat.bitwise_zero_right n)
  | negSucc n => exact congrArg Int.negSucc (Nat.or_zero n)

theorem lor_zero (k : Int) : Int.lor k 0 = k := by
  cases k with
  | ofNat n => exact congrArg Int.ofNat (Nat.or_zero n)
  | negSucc n => exact congrArg Int.negSucc (Nat.bitwise_zero_right n)

theorem clearBit_eq_ldiff (mode : Int) : clearBit mode = Int.ldiff mode 2 := by
  obtain ⟨a, b, k, rfl⟩ := exists_bits mode
  have two : (2 : Int) = Int.bit false (Int.bit true 0) := by decide
  rw [two, Int.ldiff_bit, Int.ldiff_bit, ldiff_zero, clearBit, hasBit_bits, calibrationBit]
  simp only [Int.bit_val]
  cases a <;> cases b <;> grind

theorem setBit_eq_lor (mode : Int) : setBit mode = Int.lor mode 2 := by
  obtain ⟨a, b, k, rfl⟩ := exists_bits mode
  have two : (2 : Int) = Int.bit false (Int.bit true 0) := by decide
  rw [two, Int.lor_bit, Int.lor_bit, lor_zero, setBit, hasBit_bits, calibrationBit]
  simp only [Int.bit_val]
  cases a <;> cases b <;> grind

theorem testBit_clearBit (mode : Int) : (clearBit mode).testBit 1 = false := by
  rw [clearBit_eq_ldiff, Int.testBit_ldiff, show Int.testBit 2 1 = true from rfl, Bool.not_true,
    Bool.and_false]

theorem testBit_setBit (mode : Int) : (setBit mode).testBit 1 = true := by
  rw [setBit_eq_lor, Int.testBit_lor, show Int.testBit 2 1 = true from rfl, Bool.or_true]

theorem clearBit_of_not_hasBit {mode : Int} (h : hasBit mode = false) : clearBit mode = mode := by
  rw [clearBit, h]
  rfl

theorem clearBit_clearBit (mode : Int) : clearBit (clearBit mode) = clearBit mode :=
  clearBit_of_not_hasBit (by rw [hasBit_eq_testBit, testBit_clearBit])

end Commissioning.Covering

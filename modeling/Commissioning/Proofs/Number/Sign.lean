import Commissioning.Proofs.Number.Rounding

/-!
Signs through arithmetic. Products, quotients and sums of numbers that are not below zero are not below
zero, so neither are the steps of a duration. There are two zeros, and what is not a number is not below
zero either; it stays what it is until it is asked for its integer part, which it does not have.
-/
namespace Commissioning

namespace Binary64
variable {x y z : Binary64} {d : Nat}

/-- Not below zero. -/
inductive NonNeg : Binary64 → Prop where
  | nan : NonNeg .nan
  | infinite : NonNeg (.infinite false)
  | finite (units : Nat) : NonNeg (.finite false units)
  | zero : NonNeg (.finite true 0)

theorem nonNeg_of_not_lt (h : x.lt (.ofNat 0) = false) : x.NonNeg := by
  cases x with
  | nan => exact .nan
  | infinite s =>
    cases s with
    | false => exact .infinite
    | true => cases h
  | finite s u =>
    cases s with
    | false => exact .finite u
    | true =>
      simp only [ofNat, lt, signed, Nat.zero_mul, if_true, Bool.false_eq_true, if_false,
        decide_eq_false_iff_not] at h
      obtain rfl : u = 0 := by omega
      exact .zero

theorem round_nonNeg (num den : Nat) : (round false num den).NonNeg := by
  rcases round_nonneg_cases num den with h | ⟨u, h⟩
  · exact h ▸ .infinite
  · exact h ▸ .finite u

theorem round_zero (negative : Bool) (hd : 0 < d) : round negative 0 d = .finite negative 0 := by
  have h : round negative (0 * 2 ^ 0 * d) d = .finite negative (0 * 2 ^ 0) :=
    round_exact (by decide) (by decide) hd
  rwa [Nat.zero_mul, Nat.zero_mul] at h

theorem NonNeg.mul (hx : x.NonNeg) (hy : y.NonNeg) : (x.mul y).NonNeg := by
  have hproduct (s t : Bool) (u v : Nat) (h : s = t ∨ u * v = 0) :
      (round (s != t) (u * v) one).NonNeg := by
    rcases h with rfl | h
    · rw [bne_self_eq_false]
      exact round_nonNeg _ _
    · rw [h, round_zero _ one_pos]
      cases s != t with
      | false => exact .finite 0
      | true => exact .zero
  cases hx with
  | nan => exact .nan
  | infinite =>
    cases hy with
    | nan => exact .nan
    | infinite => exact .infinite
    | finite v =>
      simp only [Binary64.mul]
      split
      · exact .nan
      · exact .infinite
    | zero => exact .nan
  | finite u =>
    cases hy with
    | nan => exact .nan
    | infinite =>
      simp only [Binary64.mul]
      split
      · exact .nan
      · exact .infinite
    | finite v => exact hproduct false false u v (.inl rfl)
    | zero => exact hproduct false true u 0 (.inr (Nat.mul_zero u))
  | zero =>
    cases hy with
    | nan => exact .nan
    | infinite => exact .nan
    | finite v => exact hproduct true false 0 v (.inr (Nat.zero_mul v))
    | zero => exact hproduct true true 0 0 (.inl rfl)

theorem NonNeg.div (hd : 0 < d) (hx : x.NonNeg) (h : x.div? (.ofNat d) = some z) : z.NonNeg := by
  have hpos := Nat.mul_pos hd one_pos
  obtain ⟨v, hv⟩ := Nat.exists_eq_succ_of_ne_zero (Nat.ne_of_gt hpos)
  rw [ofNat, hv] at h
  cases hx with
  | nan =>
    cases h
    exact .nan
  | infinite =>
    cases h
    exact .infinite
  | finite u =>
    rw [← Option.some.inj h]
    exact round_nonNeg _ _
  | zero =>
    rw [← Option.some.inj h, Nat.zero_mul, ← hv, round_zero _ hpos]
    exact .zero

theorem NonNeg.add_half (hx : x.NonNeg) : (x.add .half).NonNeg := by
  have hsum (s : Bool) (u : Nat) (h : 0 ≤ signed s u) : ((Binary64.finite s u).add .half).NonNeg := by
    simp only [half, add, Bool.and_false]
    generalize one / 2 = v
    have hnonneg : ¬ signed s u + signed false v < 0 :=
      Int.not_lt.mpr (Int.add_nonneg h (Int.natCast_nonneg v))
    rw [decide_eq_false hnonneg, ite_self]
    exact round_nonNeg _ _
  cases hx with
  | nan => exact .nan
  | infinite => exact .infinite
  | finite u => exact hsum false u (Int.natCast_nonneg u)
  | zero => exact hsum true 0 (Int.le_refl 0)

theorem NonNeg.integerPart {n : Int} (hx : x.NonNeg) (h : Value.integerPart x = .ok n) : 0 ≤ n := by
  cases hx with
  | nan => cases h
  | infinite => cases h
  | finite u =>
    cases h
    exact Int.natCast_nonneg _
  | zero =>
    obtain rfl : signed true (0 / one) = n := Option.some.inj (Value.integerPart_eq_ok.mp h)
    rw [Nat.zero_div]
    decide

theorem ofInt?_nonNeg {n : Int} (hn : 0 ≤ n) (h : ofInt? n = some x) : x.NonNeg := by
  rw [← ofInt?_eq_some h, decide_eq_false (Int.not_lt.mpr hn)]
  exact round_nonNeg _ _

theorem ratio?_nonNeg {n : Int} (hn : 0 ≤ n) (h : ratio? n d = some x) : x.NonNeg := by
  obtain ⟨n, rfl⟩ := Int.eq_ofNat_of_zero_le hn
  rw [ratio?_natCast] at h
  have hround := round_nonNeg (n * one) d
  cases hr : round false (n * one) d with
  | finite s u =>
    rw [hr] at h hround
    cases h
    exact hround
  | _ =>
    rw [hr] at h
    cases h

end Binary64

namespace Quantity
variable {p q t : Quantity} {x : Binary64} {d : Nat} {n : Int}

/-- Not below zero. -/
def NonNeg : Quantity → Prop
  | whole n => 0 ≤ n
  | real x => x.NonNeg

theorem nonNeg_of_isNegative (h : q.isNegative = false) : q.NonNeg := by
  cases q with
  | whole n => exact Int.not_lt.mp (of_decide_eq_false h)
  | real x => exact Binary64.nonNeg_of_not_lt h

theorem toReal_nonNeg (hq : q.NonNeg) (h : q.toReal = .ok x) : x.NonNeg := by
  cases q with
  | whole n => exact Binary64.ofInt?_nonNeg hq (toReal_whole.mp h)
  | real y =>
    cases h
    exact hq

theorem mul_nonNeg (hp : p.NonNeg) (hq : q.NonNeg) (h : p.mul q = .ok t) : t.NonNeg := by
  have hreal (h : (do return .real ((← p.toReal).mul (← q.toReal)) : Except Mismatch Quantity) =
      .ok t) : t.NonNeg := by
    obtain ⟨x, hx, h⟩ := bind_eq_ok.mp h
    obtain ⟨y, hy, h⟩ := bind_eq_ok.mp h
    cases h
    exact (toReal_nonNeg hp hx).mul (toReal_nonNeg hq hy)
  cases p with
  | real x => exact hreal h
  | whole a =>
    cases q with
    | real y => exact hreal h
    | whole b =>
      cases h
      exact Int.mul_nonneg hp hq

theorem div_nonNeg (hd : 0 < d) (hd' : d < 2 ^ 53) (ht : t.NonNeg)
    (h : t.div (.whole d) = .ok x) : x.NonNeg := by
  cases t with
  | whole n => exact Binary64.ratio?_nonNeg ht (ratio?_of_div hd h)
  | real y => exact Binary64.NonNeg.div hd ht (div_real hd' h)

/-- Steps of a duration and a speed that are not below zero are not below zero. -/
theorem stepsFor_nonneg (hp : p.NonNeg) (hq : q.NonNeg) (hd : 0 < d) (hd' : d < 2 ^ 53)
    (h : stepsFor p q (.whole d) = .ok n) : 0 ≤ n := by
  obtain ⟨t, ht, h⟩ := bind_eq_ok.mp h
  obtain ⟨x, hx, h⟩ := bind_eq_ok.mp h
  exact (div_nonNeg hd hd' (mul_nonNeg hp hq ht) hx).add_half.integerPart h

end Quantity

end Commissioning

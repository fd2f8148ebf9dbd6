import Commissioning.Proofs.Number.Rounding

/-!
Rounding half up by way of floating point numbers. A quotient is rounded to its nearest neighbour, a
half is added, the sum is rounded again, and its fraction is dropped:

    x / d ──round──▶ u ──+ ½──▶ u + ½ ──round──▶ w ──truncate──▶ N = (2 * x + d) / (2 * d)

Neither rounding takes a number below one that it could have stayed at, so `N - ½` and `N` are reached
as soon as the exact quotient reaches them. Above, the two errors together are less than what is missing
to `N + 1`, which is at least a part of `2 * d`, as long as the quotient has few bits.
-/
namespace Commissioning

namespace Binary64
variable {num den k : Nat}

/-! ### The error of one rounding -/

/-- The nearest whole number is at most a half away. -/
theorem nearest_error (hden : 0 < den) : 2 * (den * nearest num den) ≤ 2 * num + den := by
  have hsplit := Nat.div_add_mod num den
  have hrest := Nat.mod_lt num hden
  unfold nearest
  dsimp only
  split
  · omega
  · split
    · rw [Nat.mul_succ]
      omega
    · have hparity : num / den % 2 ≤ 1 := by omega
      have hodd : den * (num / den % 2) ≤ den * 1 := Nat.mul_le_mul_left den hparity
      rw [Nat.mul_add]
      omega

/-- The power of two that the distance between neighbours just below one would be. -/
def gapExponent : Nat := 1021

/-- The distance between neighbours just below `2 ^ k`, in units. -/
def gap (k : Nat) : Nat := 2 ^ (k + gapExponent)

theorem pow_gap (k : Nat) : 2 ^ 53 * gap k = 2 ^ k * one := by
  have hone : oneExponent = gapExponent + 53 := rfl
  rw [one_eq, hone, gap, ← Nat.pow_add, ← Nat.pow_add, Nat.add_comm 53, Nat.add_assoc]

theorem gap_succ (k : Nat) : gap (k + 1) = 2 * gap k := by
  rw [gap, gap, Nat.add_right_comm, Nat.pow_succ']

theorem gap_dvd_half {k : Nat} (hk : k ≤ 52) : gap k ∣ one / 2 := by
  have hhalf : one / 2 = 2 ^ (gapExponent + 52) := by
    have hone : oneExponent = gapExponent + 52 + 1 := rfl
    rw [one_eq, hone, Nat.pow_succ', Nat.mul_div_cancel_left _ (by decide)]
  rw [hhalf, gap]
  exact Nat.pow_dvd_pow 2 (by omega)

theorem one_eq_half : one = 2 * (one / 2) := by
  obtain ⟨e, he⟩ : ∃ e, oneExponent = e + 1 := ⟨1073, rfl⟩
  rw [one_eq, he, Nat.pow_succ', Nat.mul_div_cancel_left _ (by decide)]

theorem spacing_dvd_gap (hden : 0 < den) (h : num < 2 ^ k * one * den) :
    spacing (num / den) ∣ gap k := by
  have hpow : 2 ^ k * one = 2 ^ (k + gapExponent + 52 + 1) := by
    rw [← pow_gap, gap, Nat.mul_comm, ← Nat.pow_add]
  refine spacing_dvd ?_
  by_cases h0 : num / den = 0
  · simp [h0]
  · rw [hpow] at h
    have hlt := (Nat.div_lt_iff_lt_mul hden).mpr h
    exact Nat.lt_succ_iff.mp ((Nat.log2_lt h0).mpr hlt)

/-- Rounding to multiples stays above those that have been reached. -/
theorem le_nearest_mul {step c : Nat} (hden : 0 < den) (hstep : 0 < step) (hc : step ∣ c)
    (h : c * den ≤ num) : c ≤ nearest num (den * step) * step := by
  obtain ⟨m, rfl⟩ := hc
  rw [Nat.mul_comm step]
  refine Nat.mul_le_mul_right step (Nat.le_trans ?_ (le_nearest _ _))
  rw [Nat.le_div_iff_mul_le (Nat.mul_pos hden hstep), Nat.mul_comm den, ← Nat.mul_assoc,
    Nat.mul_comm m]
  exact h

theorem double_pow_le_limit (hk : k < 1024) : 2 * (2 ^ k * one) ≤ limit := by
  rw [one_eq, limit_eq, ← Nat.pow_add, ← Nat.pow_succ']
  refine Nat.pow_le_pow_right (by decide) ?_
  have : limitExponent = oneExponent + 1024 := rfl
  omega

/-- A number below `2 ^ k` is rounded by at most half of the distance between neighbours there, and
not below a multiple of that distance that it has reached. -/
theorem round_near (negative : Bool) (hden : 0 < den) (hk : k < 1024) (h : num < 2 ^ k * one * den) :
    ∃ u, round negative num den = .finite negative u ∧
      2 * (den * u) ≤ 2 * num + den * gap k ∧ ∀ c, gap k ∣ c → c * den ≤ num → c ≤ u := by
  obtain ⟨step, hstep⟩ : ∃ step, step = spacing (num / den) := ⟨_, rfl⟩
  have hpos : 0 < step := hstep ▸ spacing_pos _
  have hdvd : step ∣ gap k := hstep ▸ spacing_dvd_gap hden h
  have herror : 2 * (den * (nearest num (den * step) * step)) ≤ 2 * num + den * gap k := by
    calc 2 * (den * (nearest num (den * step) * step))
        = 2 * (den * step * nearest num (den * step)) := by ring
      _ ≤ 2 * num + den * step := nearest_error (Nat.mul_pos hden hpos)
      _ ≤ 2 * num + den * gap k := Nat.add_le_add_left
        (Nat.mul_le_mul_left den (Nat.le_of_dvd (Nat.two_pow_pos _) hdvd)) _
  have hlimit : nearest num (den * step) * step < limit := by
    have hnear : gap k ≤ 2 ^ k * one := by
      rw [← pow_gap]
      exact Nat.le_mul_of_pos_left _ (by decide)
    have hscaled := Nat.mul_le_mul_left den hnear
    refine Nat.lt_of_lt_of_le (Nat.lt_of_mul_lt_mul_left (a := 2 * den) ?_) (double_pow_le_limit hk)
    calc 2 * den * (nearest num (den * step) * step)
        = 2 * (den * (nearest num (den * step) * step)) := Nat.mul_assoc ..
      _ ≤ 2 * num + den * gap k := herror
      _ < 2 * (2 ^ k * one * den) + 2 * (den * (2 ^ k * one)) := by omega
      _ = 2 * den * (2 * (2 ^ k * one)) := by ring
  refine ⟨_, ?_, herror, fun c hc => le_nearest_mul hden hpos (Nat.dvd_trans hdvd hc)⟩
  unfold round
  dsimp only
  rw [← hstep, if_pos hlimit]

/-! ### A half added -/

theorem add_half (u : Nat) : (finite false u).add half = round false (u + one / 2) 1 := by
  have hpos : 0 < one / 2 := by
    have hone := one_eq_half
    have := one_pos
    omega
  simp only [half, add, signed]
  generalize one / 2 = v at hpos ⊢
  have hsum : (u : Int) + v = (u + v : Nat) := by omega
  have hzero : ¬ ((u + v : Nat) : Int) = 0 := by omega
  have hneg : decide (((u + v : Nat) : Int) < 0) = false := decide_eq_false (by omega)
  simp only [Bool.false_eq_true, if_false, hsum, if_neg hzero, hneg, Int.natAbs_natCast]

end Binary64

/-! ### A quotient rounded half up -/

open Binary64

/-- A quotient rounded half up. -/
def halfUp (x d : Nat) : Nat := (2 * x + d) / (2 * d)

section
variable {x d k : Nat}

theorem halfUp_le (x d : Nat) : 2 * d * halfUp x d ≤ 2 * x + d := Nat.mul_div_le _ _

theorem lt_halfUp (hd : 0 < d) : 2 * x + d < 2 * d * (halfUp x d + 1) :=
  Nat.lt_mul_div_succ _ (Nat.mul_pos (by decide) hd)

theorem halfUp_mono {y : Nat} (h : x ≤ y) : halfUp x d ≤ halfUp y d :=
  Nat.div_le_div_right (by omega)

/-- Sums whose errors are small in the scale of the divisor stay below the next whole number. -/
theorem halfUp_error {scale step u w : Nat} (hd : 0 < d) (hstep : 4 * (d * step) ≤ scale)
    (hscale : 0 < scale) (hu : 2 * (d * u) ≤ 2 * (x * scale) + d * step)
    (hw : 2 * w ≤ 2 * u + scale + 2 * step) : w < (halfUp x d + 1) * scale := by
  have hnext : (2 * x + d + 1) * scale ≤ 2 * d * (halfUp x d + 1) * scale :=
    Nat.mul_le_mul_right scale (lt_halfUp hd)
  have hscaled := Nat.mul_le_mul_left d hw
  refine Nat.lt_of_mul_lt_mul_left (a := 2 * d) ?_
  calc 2 * d * w = d * (2 * w) := by ring
    _ ≤ d * (2 * u + scale + 2 * step) := hscaled
    _ = 2 * (d * u) + d * scale + 2 * (d * step) := by ring
    _ < 2 * (x * scale) + d * scale + scale := by omega
    _ = (2 * x + d + 1) * scale := by ring
    _ ≤ 2 * d * (halfUp x d + 1) * scale := hnext
    _ = 2 * d * ((halfUp x d + 1) * scale) := Nat.mul_assoc ..

/-- The first rounding reaches `N - ½` where the quotient does. -/
theorem le_of_halfUp {scale half N : Nat} (hscale : scale = 2 * half) (hN : N + 1 ≤ halfUp x d) :
    (2 * N + 1) * half * d ≤ x * scale := by
  have hle : (2 * N + 1) * d ≤ 2 * x := by
    have hnext := Nat.le_trans (Nat.mul_le_mul_left (2 * d) hN) (halfUp_le x d)
    have hexpand : 2 * d * (N + 1) = (2 * N + 1) * d + d := by ring
    omega
  calc (2 * N + 1) * half * d = (2 * N + 1) * d * half := Nat.mul_right_comm ..
    _ ≤ 2 * x * half := Nat.mul_le_mul_right half hle
    _ = x * scale := by
      rw [hscale]
      ring

/-- The quotient as it is rounded: it has reached `N - ½` if it does so exactly, and its error is
small. -/
theorem quotient_near (hd : 0 < d) (hx : x < d * 2 ^ k) (hk : k ≤ 52) :
    ∃ u, round false (x * one) d = .finite false u ∧
      2 * (d * u) ≤ 2 * (x * one) + d * gap k ∧
      ∀ N, N + 1 ≤ halfUp x d → (2 * N + 1) * (one / 2) ≤ u := by
  have hpos := one_pos
  have hhalf := one_eq_half
  have hquotient : x * one < 2 ^ k * one * d := by
    rw [Nat.mul_right_comm, Nat.mul_comm (2 ^ k)]
    exact Nat.mul_lt_mul_of_pos_right hx hpos
  obtain ⟨u, hround, hu, hreach⟩ := round_near false hd (by omega) hquotient
  refine ⟨u, hround, hu, fun N hN => ?_⟩
  have hexact : (2 * N + 1) * (one / 2) * d ≤ x * one := le_of_halfUp hhalf hN
  exact hreach _ ((gap_dvd_half hk).mul_left _) hexact

/-- The error is not large enough for the sum with a half to need another exponent than the next. -/
theorem sum_lt {u : Nat} (hd : 0 < d) (hx : x < d * 2 ^ k)
    (hu : 2 * (d * u) ≤ 2 * (x * one) + d * gap k) : u + one / 2 < 2 ^ (k + 1) * one := by
  have hpos := one_pos
  have hhalf := one_eq_half
  have hpow := pow_gap k
  have hone : one ≤ 2 ^ k * one := Nat.le_mul_of_pos_left _ (Nat.two_pow_pos k)
  have hscaled : x * one ≤ d * 2 ^ k * one := Nat.mul_le_mul_right one (Nat.le_of_lt hx)
  have hbound : 2 * u ≤ 2 * (2 ^ k * one) + gap k := by
    refine Nat.le_of_mul_le_mul_left ?_ hd
    calc d * (2 * u) = 2 * (d * u) := Nat.mul_left_comm ..
      _ ≤ 2 * (x * one) + d * gap k := hu
      _ ≤ 2 * (d * 2 ^ k * one) + d * gap k := by omega
      _ = d * (2 * (2 ^ k * one) + gap k) := by ring
  rw [Nat.pow_succ', Nat.mul_assoc]
  omega

/-- The sum with a half as it is rounded. -/
theorem sum_near {u : Nat} (hk : k ≤ 51) (hu : u + one / 2 < 2 ^ (k + 1) * one) :
    ∃ w, (Binary64.finite false u).add .half = .finite false w ∧
      2 * w ≤ 2 * u + one + 2 * gap k ∧ ∀ N, N * one ≤ u + one / 2 → N * one ≤ w := by
  have hhalf := one_eq_half
  rw [← Nat.mul_one (2 ^ (k + 1) * one)] at hu
  obtain ⟨w, hround, hw, hreach⟩ := round_near false Nat.one_pos (by omega) hu
  rw [gap_succ] at hw hreach
  refine ⟨w, (add_half u).trans hround, by omega, fun N hN => hreach _ ?_ ?_⟩
  · rw [hhalf]
    exact (Nat.mul_dvd_mul_left 2 (gap_dvd_half (by omega))).mul_left N
  · rw [Nat.mul_one]
    exact hN

/-- A quotient of few bits is rounded half up. -/
theorem stepsIn_halfUp (hd : 0 < d) (hx : x < d * 2 ^ k) (hk : d * 2 ^ k ≤ 2 ^ 51) :
    stepsIn (.whole x) (.whole d) = .ok (halfUp x d) := by
  have hk51 : k ≤ 51 := (Nat.pow_le_pow_iff_right (by decide)).mp
    (Nat.le_trans (Nat.le_mul_of_pos_left _ hd) hk)
  obtain ⟨u, hround, hu, hreached⟩ := quotient_near hd hx (Nat.le_succ_of_le hk51)
  obtain ⟨w, hadd, hw, hreached'⟩ := sum_near hk51 (sum_lt hd hx hu)
  have hlow : halfUp x d * one ≤ w := by
    cases hN : halfUp x d with
    | zero =>
      rw [Nat.zero_mul]
      exact Nat.zero_le w
    | succ N =>
      have hhalf := one_eq_half
      have hsum : (N + 1) * one = (2 * N + 1) * (one / 2) + one / 2 := by
        generalize one / 2 = half at hhalf
        rw [hhalf]
        ring
      refine hreached' _ ?_
      rw [hsum]
      exact Nat.add_le_add_right (hreached N (Nat.le_of_eq hN.symm)) _
  -- the two roundings err by less than the sum is away from the next whole number
  have hhigh : w < (halfUp x d + 1) * one := by
    have hscaled : 2 ^ 53 * (d * gap k) ≤ 2 ^ 51 * one := by
      rw [Nat.mul_left_comm, pow_gap, ← Nat.mul_assoc]
      exact Nat.mul_le_mul_right one hk
    have hpos := one_pos
    refine halfUp_error hd ?_ hpos hu hw
    omega
  have hwhole : w / one = halfUp x d := Nat.div_eq_of_lt_le hlow hhigh
  have hz : ratio? x d = some (.finite false u) := by
    rw [ratio?_natCast, hround]
    rfl
  refine bind_eq_ok.mpr ⟨_, Quantity.div_whole hd hz, ?_⟩
  rw [hadd, Value.integerPart_eq_ok, truncate?, hwhole]
  rfl

end

namespace Quantity
variable {v s d k : Nat}

theorem stepsFor_whole (hd : 0 < d) (hx : v * s < d * 2 ^ k) (hk : d * 2 ^ k ≤ 2 ^ 51) :
    stepsFor (.whole v) (.whole s) (.whole d) = .ok (halfUp (v * s) d) := by
  have hsteps := stepsIn_halfUp hd hx hk
  rwa [Int.natCast_mul] at hsteps

/-- Products up to `10 ^ 15` have few bits for whole units and for thousandths. -/
theorem stepsFor_halfUp (hd : d = 1 ∨ d = 1000) (h : v * s ≤ 10 ^ 15) :
    stepsFor (.whole v) (.whole s) (.whole d) = .ok ((2 * v * s + d) / (2 * d) : Nat) := by
  rw [Nat.mul_assoc]
  rcases hd with rfl | rfl
  · exact stepsFor_whole (k := 50) (by decide) (by omega) (by decide)
  · exact stepsFor_whole (k := 40) (by decide) (by omega) (by decide)

end Quantity

end Commissioning

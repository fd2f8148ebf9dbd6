import Commissioning.Proofs.Number.Rounding

/-!
Numbers that stay finite. Rounding never takes a number above a power of two that it has not passed,
and never to more than twice what it was, so the steps of a duration are a number as long as duration,
speed and product are well within the range of floating point numbers.

    u * v ≤ 2 ^ 1021    product ≤ 2 ^ 1022    quotient ≤ 2 ^ 1022    sum ≤ 2 ^ 1023  <  2 ^ 1024
-/
namespace Commissioning

namespace Binary64
variable {negative : Bool} {num den c k : Nat} {x y : Binary64}

/-- A finite number of at most so many units. -/
def UpTo (units : Nat) (x : Binary64) : Prop := ∃ s u, x = .finite s u ∧ u ≤ units

theorem nearest_le (hden : 0 < den) (h : num ≤ c * den) : nearest num den ≤ c := by
  have hq : num / den ≤ c := Nat.div_le_of_le_mul (by rwa [Nat.mul_comm])
  have hsplit := Nat.div_add_mod num den
  unfold nearest
  dsimp only
  by_cases hc : num / den = c
  · have hr : num % den = 0 := by
      rw [hc, Nat.mul_comm] at hsplit
      omega
    rw [hr, Nat.mul_zero, if_pos hden]
    exact hq
  · split
    · exact hq
    · split <;> omega

theorem nearest_le_succ (num den : Nat) : nearest num den ≤ num / den + 1 := by
  unfold nearest
  dsimp only
  split
  · omega
  · split <;> omega

theorem round_upTo (negative : Bool) (hden : 0 < den) (hk : k < limitExponent)
    (h : num ≤ 2 ^ k * den) : (round negative num den).UpTo (2 ^ k) := by
  have hq : num / den ≤ 2 ^ k := Nat.div_le_of_le_mul (by rwa [Nat.mul_comm])
  obtain ⟨c, hc⟩ : spacing (num / den) ∣ 2 ^ k := by
    refine spacing_dvd (Nat.le_trans ?_ (Nat.le_add_right k 52))
    by_cases h0 : num / den = 0
    · simp [h0]
    · have hlt : num / den < 2 ^ (k + 1) := by
        rw [Nat.pow_succ]
        have := Nat.two_pow_pos k
        omega
      exact Nat.lt_succ_iff.mp ((Nat.log2_lt h0).mpr hlt)
  have hnearest : nearest num (den * spacing (num / den)) ≤ c := by
    refine nearest_le (Nat.mul_pos hden (spacing_pos _)) ?_
    rw [Nat.mul_comm den, ← Nat.mul_assoc, Nat.mul_comm c, ← hc]
    exact h
  have hunits : nearest num (den * spacing (num / den)) * spacing (num / den) ≤ 2 ^ k := by
    rw [hc, Nat.mul_comm]
    exact Nat.mul_le_mul_left _ hnearest
  have hlimit : 2 ^ k < limit := by
    rw [limit_eq]
    exact Nat.pow_lt_pow_right (by decide) hk
  unfold round
  dsimp only
  rw [if_pos (Nat.lt_of_le_of_lt hunits hlimit)]
  exact ⟨negative, _, rfl, hunits⟩

/-- Rounding a whole number of units at most doubles it. -/
theorem round_double {s : Bool} {u : Nat} (h : round negative num 1 = .finite s u) : u ≤ 2 * num := by
  have hdouble : nearest num (spacing num) * spacing num ≤ 2 * num := by
    by_cases h0 : num = 0
    · simp [h0, nearest, spacing]
    · have hspacing : spacing num ≤ num :=
        Nat.le_trans (Nat.pow_le_pow_right (by decide) (Nat.sub_le _ 52)) (Nat.log2_self_le h0)
      calc nearest num (spacing num) * spacing num
          ≤ (num / spacing num + 1) * spacing num :=
            Nat.mul_le_mul_right _ (nearest_le_succ num _)
        _ ≤ num + spacing num := by
            rw [Nat.succ_mul]
            exact Nat.add_le_add_right (Nat.div_mul_le_self num _) _
        _ ≤ 2 * num := by omega
  unfold round at h
  dsimp only at h
  rw [Nat.div_one, Nat.one_mul] at h
  split at h
  · cases h
    exact hdouble
  · cases h

/-! ### Arithmetic that stays finite -/

theorem UpTo.mono {u v : Nat} (hx : x.UpTo u) (h : u ≤ v) : x.UpTo v := by
  obtain ⟨s, w, rfl, hw⟩ := hx
  exact ⟨s, w, rfl, Nat.le_trans hw h⟩

theorem mul_upTo {s t : Bool} {u v : Nat} (hk : k < limitExponent) (h : u * v ≤ 2 ^ k * one) :
    ((finite s u).mul (.finite t v)).UpTo (2 ^ k) := by
  rw [mul]
  exact round_upTo _ one_pos hk h

theorem div?_upTo {d : Nat} (hd : 0 < d) (hk : k < limitExponent) (hx : x.UpTo (2 ^ k)) :
    ∃ y, x.div? (.ofNat d) = some y ∧ y.UpTo (2 ^ k) := by
  obtain ⟨s, u, rfl, hu⟩ := hx
  have hpos := Nat.mul_pos hd one_pos
  obtain ⟨v, hv⟩ := Nat.exists_eq_succ_of_ne_zero (Nat.ne_of_gt hpos)
  refine ⟨round (s != false) (u * one) (d * one), ?_, round_upTo _ hpos hk ?_⟩
  · rw [ofNat, hv]
    rfl
  · rw [← Nat.mul_assoc]
    exact Nat.mul_le_mul_right one (Nat.le_trans hu (Nat.le_mul_of_pos_right _ hd))

theorem add_half_upTo (hk : k + 1 < limitExponent) (hone : oneExponent ≤ k) (hx : x.UpTo (2 ^ k)) :
    (x.add .half).UpTo (2 ^ (k + 1)) := by
  obtain ⟨s, u, rfl, hu⟩ := hx
  have hhalf : one / 2 ≤ 2 ^ k := by
    refine Nat.le_trans (Nat.div_le_self one 2) ?_
    rw [one_eq]
    exact Nat.pow_le_pow_right (by decide) hone
  simp only [half, add]
  generalize one / 2 = v at hhalf ⊢
  refine round_upTo _ Nat.one_pos hk ?_
  rw [Nat.mul_one, Nat.pow_succ]
  cases s <;> simp only [signed] <;> omega

theorem integerPart_upTo (hk : oneExponent ≤ k) (hx : x.UpTo (2 ^ k)) :
    ∃ n, Value.integerPart x = .ok n ∧ n.natAbs ≤ 2 ^ (k - oneExponent) := by
  obtain ⟨s, u, rfl, hu⟩ := hx
  refine ⟨signed s (u / one), rfl, ?_⟩
  have hle : u / one ≤ 2 ^ (k - oneExponent) := by
    rw [one_eq]
    refine Nat.div_le_of_le_mul ?_
    rwa [← Nat.pow_add, Nat.add_sub_cancel' hk]
  generalize u / one = q at hle ⊢
  cases s <;> simp only [signed] <;> omega

theorem ofInt?_upTo {n : Int} (hk : k < limitExponent) (hn : n.natAbs * one ≤ 2 ^ k) :
    ∃ s u, ofInt? n = some (.finite s u) ∧ u ≤ 2 * (n.natAbs * one) := by
  have hle : n.natAbs * one ≤ 2 ^ k * 1 := by
    rw [Nat.mul_one]
    exact hn
  obtain ⟨s, u, hround, -⟩ := round_upTo (n < 0) Nat.one_pos hk hle
  exact ⟨s, u, (ofInt?_eq hround).trans rfl, round_double hround⟩

theorem ratio?_upTo {n : Int} {d : Nat} (hd : 0 < d) (hk : k < limitExponent)
    (hn : n.natAbs * one ≤ 2 ^ k) : ∃ x, ratio? n d = some x ∧ x.UpTo (2 ^ k) := by
  have hle : n.natAbs * one ≤ 2 ^ k * (d : Int).natAbs :=
    Nat.le_trans hn (Nat.le_mul_of_pos_right _ hd)
  obtain ⟨s, u, hround, hu⟩ := round_upTo ((n < 0) != ((d : Int) < 0)) (by simpa using hd) hk hle
  exact ⟨_, ratio?_finite hround, _, _, rfl, hu⟩

end Binary64

namespace Quantity
open Binary64
variable {p q : Quantity} {d : Nat}

/-- The units of a finite number. -/
def units? : Quantity → Option Nat
  | whole n => some (n.natAbs * one)
  | real (.finite _ u) => some u
  | real _ => none

/-- The power of two up to which numbers are well within the range of floating point numbers. -/
def reach : Nat := 1021

/-- Two finite numbers and their product are well within the range of floating point numbers. -/
def Within (p q : Quantity) : Prop := ∃ u v, p.units? = some u ∧ q.units? = some v ∧
  u ≤ 2 ^ reach * one ∧ v ≤ 2 ^ reach * one ∧ u * v ≤ 2 ^ reach * one * one

theorem reach_lt {i : Nat} (hi : i ≤ 2) : i + reach + oneExponent < limitExponent := by
  unfold reach oneExponent limitExponent
  omega

theorem pow_reach (i : Nat) : 2 ^ i * 2 ^ reach * one = 2 ^ (i + reach + oneExponent) := by
  rw [one_eq, ← Nat.pow_add, ← Nat.pow_add]

theorem within_whole {a b : Int} (ha : a.natAbs ≤ 2 ^ reach) (hb : b.natAbs ≤ 2 ^ reach)
    (hab : (a * b).natAbs ≤ 2 ^ reach) : (whole a).Within (whole b) := by
  refine ⟨_, _, rfl, rfl, Nat.mul_le_mul_right one ha, Nat.mul_le_mul_right one hb, ?_⟩
  rw [Nat.mul_mul_mul_comm, ← Int.natAbs_mul, Nat.mul_assoc]
  exact Nat.mul_le_mul_right (one * one) hab

/-- An integer may be rounded when it becomes a floating point number. -/
theorem toReal_units {u : Nat} (h : q.units? = some u) (hu : u ≤ 2 ^ reach * one) :
    ∃ s v, q.toReal = .ok (.finite s v) ∧ v ≤ 2 * u ∧ ((∃ n, q = .whole n) ∨ v = u) := by
  cases q with
  | whole n =>
    obtain rfl : n.natAbs * one = u := Option.some.inj h
    have hn : n.natAbs * one ≤ 2 ^ (0 + reach + oneExponent) := by
      rwa [← pow_reach, Nat.pow_zero, Nat.one_mul]
    obtain ⟨s, v, hv, hle⟩ := ofInt?_upTo (reach_lt (by decide)) hn
    exact ⟨s, v, toReal_whole.mpr hv, hle, .inl ⟨n, rfl⟩⟩
  | real x =>
    cases x with
    | finite s v =>
      cases h
      exact ⟨s, _, rfl, by omega, .inr rfl⟩
    | _ => cases h

theorem div_real_eq {x y : Binary64} (hd : d < 2 ^ 53) (h : x.div? (.ofNat d) = some y) :
    div (.real x) (.whole d) = .ok y := by
  refine bind_eq_ok.mpr ⟨x, rfl, bind_eq_ok.mpr ⟨.ofNat d, ?_, ?_⟩⟩
  · exact toReal_whole.mpr (ofInt?_natCast hd)
  · rw [h]

/-- The product over a divisor. -/
theorem travel_upTo (h : p.Within q) (hd : 0 < d) (hd' : d < 2 ^ 53) :
    ∃ t x, p.mul q = .ok t ∧ t.div (.whole d) = .ok x ∧ x.UpTo (2 ^ (1 + reach + oneExponent)) := by
  obtain ⟨u, v, hpu, hqv, hus, hvs, hproduct⟩ := h
  obtain ⟨s, u', hp, hu, hu'⟩ := toReal_units hpu hus
  obtain ⟨t, v', hq, hv, hv'⟩ := toReal_units hqv hvs
  rcases mul_real hp hq with hmul | ⟨a, b, rfl, rfl⟩
  · have hsize : u' * v' ≤ 2 ^ (1 + reach + oneExponent) * one := by
      have hdouble : u' * v' ≤ 2 * (u * v) := by
        rcases hu' with ⟨a, rfl⟩ | rfl
        · rcases hv' with ⟨b, rfl⟩ | rfl
          · cases hmul
          · rw [← Nat.mul_assoc]
            exact Nat.mul_le_mul_right _ hu
        · rw [Nat.mul_left_comm]
          exact Nat.mul_le_mul_left _ hv
      rw [← pow_reach, pow_one, Nat.mul_assoc, Nat.mul_assoc, ← Nat.mul_assoc (2 ^ reach)]
      exact Nat.le_trans hdouble (Nat.mul_le_mul_left 2 hproduct)
    have hx := mul_upTo (s := s) (t := t) (reach_lt (by decide)) hsize
    obtain ⟨x, hdiv, hup⟩ := div?_upTo hd (reach_lt (by decide)) hx
    exact ⟨_, x, hmul, div_real_eq hd' hdiv, hup⟩
  · obtain rfl : a.natAbs * one = u := Option.some.inj hpu
    obtain rfl : b.natAbs * one = v := Option.some.inj hqv
    have hab : (a * b).natAbs * one ≤ 2 ^ (0 + reach + oneExponent) := by
      rw [← pow_reach, Nat.pow_zero, Nat.one_mul, Int.natAbs_mul]
      refine Nat.le_of_mul_le_mul_right ?_ Binary64.one_pos
      rwa [Nat.mul_mul_mul_comm, ← Nat.mul_assoc] at hproduct
    obtain ⟨x, hx, hup⟩ := ratio?_upTo hd (reach_lt (by decide)) hab
    exact ⟨_, x, rfl, div_whole hd hx, hup.mono (Nat.pow_le_pow_right (by decide) (by omega))⟩

/-- Steps of numbers that are well within the range are a number. -/
theorem stepsFor_within (h : p.Within q) (hd : 0 < d) (hd' : d < 2 ^ 53) :
    ∃ n, stepsFor p q (.whole d) = .ok n ∧ n.natAbs ≤ 2 ^ (2 + reach) := by
  obtain ⟨t, x, ht, hx, hup⟩ := travel_upTo h hd hd'
  have hlimit : 1 + reach + oneExponent + 1 < limitExponent := by
    have := reach_lt (i := 2) (by decide)
    omega
  have hsum := add_half_upTo hlimit (Nat.le_add_left _ _) hup
  obtain ⟨n, hn, hle⟩ := integerPart_upTo (by omega) hsum
  refine ⟨n, bind_eq_ok.mpr ⟨t, ht, bind_eq_ok.mpr ⟨x, hx, hn⟩⟩, ?_⟩
  rwa [show 1 + reach + oneExponent + 1 - oneExponent = 2 + reach by omega] at hle

end Quantity

end Commissioning

import Commissioning.Number.Quantity
import Commissioning.Proofs.Logged
import Mathlib.Tactic.Ring

/-!
What rounding keeps. A number of at most 53 significant bits is its own nearest neighbour, so products
of small integers are exact; and rounding never takes a number below a power of two that it has
reached. So motor steps are the same whether a duration and a speed are multiplied as integers or as
floating point numbers, as long as they fit an attribute:

    n * s < 2 ^ 53      both products are exact
    2 ^ 53 ≤ n * s      both are far too large
-/
namespace Commissioning

namespace Binary64
variable {negative : Bool} {num den k : Nat} {x y z : Binary64}

/-- The power of two that one is, in units. -/
def oneExponent : Nat := 1074

/-- The power of two that the limit is. -/
def limitExponent : Nat := 2098

theorem one_eq : one = 2 ^ oneExponent := by
  unfold one oneExponent
  generalize 1074 = e
  rfl

theorem limit_eq : limit = 2 ^ limitExponent := by
  unfold limit limitExponent
  generalize 2098 = e
  rfl

theorem one_pos : 0 < one := by
  rw [one_eq]
  exact Nat.two_pow_pos oneExponent

/-! ### The nearest number -/

theorem le_nearest (num den : Nat) : num / den ≤ nearest num den := by
  unfold nearest
  dsimp only
  split
  · exact Nat.le_refl _
  · split <;> omega

theorem nearest_mul (c : Nat) (hden : 0 < den) : nearest (c * den) den = c := by
  unfold nearest
  dsimp only
  rw [Nat.mul_mod_left, Nat.mul_div_cancel c hden, if_pos (by omega)]

/-- A fraction may be reduced. -/
theorem nearest_scale (num den : Nat) {c : Nat} (hc : 0 < c) :
    nearest (num * c) (den * c) = nearest num den := by
  unfold nearest
  dsimp only
  rw [Nat.mul_div_mul_right _ _ hc, Nat.mul_mod_mul_right, ← Nat.mul_assoc]
  simp only [Nat.mul_lt_mul_right hc]

theorem spacing_dvd {q e : Nat} (h : q.log2 ≤ e + 52) : spacing q ∣ 2 ^ e :=
  Nat.pow_dvd_pow 2 (by omega)

theorem spacing_pos (q : Nat) : 0 < spacing q := Nat.two_pow_pos _

/-! ### Rounding -/

theorem round_scale (negative : Bool) (num den : Nat) {c : Nat} (hc : 0 < c) :
    round negative (num * c) (den * c) = round negative num den := by
  unfold round
  dsimp only
  rw [Nat.mul_div_mul_right _ _ hc, Nat.mul_right_comm, nearest_scale _ _ hc]

/-- Significands of up to 53 bits are kept as they are. -/
theorem round_exact {m e : Nat} (hm : m < 2 ^ 53) (he : 53 + e ≤ limitExponent) (hden : 0 < den) :
    round negative (m * 2 ^ e * den) den = .finite negative (m * 2 ^ e) := by
  have hlog : (m * 2 ^ e).log2 ≤ e + 52 := by
    by_cases h0 : m = 0
    · simp [h0]
    · have hlt : m * 2 ^ e < 2 ^ (53 + e) := by
        rw [Nat.pow_add]
        exact Nat.mul_lt_mul_of_pos_right hm (Nat.two_pow_pos e)
      have := (Nat.log2_lt (Nat.mul_ne_zero h0 (Nat.ne_of_gt (Nat.two_pow_pos e)))).mpr hlt
      omega
  obtain ⟨c, hc⟩ := spacing_dvd hlog
  have hunits : m * 2 ^ e = m * c * spacing (m * 2 ^ e) := by
    rw [Nat.mul_assoc, Nat.mul_comm c, ← hc]
  have hnearest : nearest (m * 2 ^ e * den) (den * spacing (m * 2 ^ e)) = m * c := by
    have hsplit : m * 2 ^ e * den = m * c * (den * spacing (m * 2 ^ e)) := by
      rw [Nat.mul_comm den, ← Nat.mul_assoc, ← hunits]
    rw [hsplit, nearest_mul _ (Nat.mul_pos hden (spacing_pos _))]
  have hlimit : m * 2 ^ e < limit := by
    calc m * 2 ^ e < 2 ^ 53 * 2 ^ e := Nat.mul_lt_mul_of_pos_right hm (Nat.two_pow_pos e)
      _ = 2 ^ (53 + e) := (Nat.pow_add 2 53 e).symm
      _ ≤ 2 ^ limitExponent := Nat.pow_le_pow_right (by decide) he
      _ = limit := limit_eq.symm
  unfold round
  dsimp only
  rw [Nat.mul_div_cancel _ hden, hnearest, ← hunits, if_pos hlimit]

/-- At least `2 ^ k` units away from zero, or infinite. -/
inductive Reaches (negative : Bool) (k : Nat) : Binary64 → Prop where
  | infinite : Reaches negative k (.infinite negative)
  | finite {units : Nat} (h : 2 ^ k ≤ units) : Reaches negative k (.finite negative units)

/-- Rounding stays above a power of two. -/
theorem round_reaches (negative : Bool) (hden : 0 < den) (h : 2 ^ k * den ≤ num) :
    (round negative num den).Reaches negative k := by
  have hq : 2 ^ k ≤ num / den := (Nat.le_div_iff_mul_le hden).mpr h
  have hpos : num / den ≠ 0 := Nat.ne_of_gt (Nat.lt_of_lt_of_le (Nat.two_pow_pos k) hq)
  -- the power of two below the quotient is a multiple of the spacing there
  obtain ⟨c, hc⟩ : spacing (num / den) ∣ 2 ^ (num / den).log2 := spacing_dvd (by omega)
  have hle : 2 ^ k ≤ 2 ^ (num / den).log2 :=
    Nat.pow_le_pow_right (by decide) ((Nat.le_log2 hpos).mpr hq)
  have hnearest : c ≤ nearest num (den * spacing (num / den)) := by
    refine Nat.le_trans ?_ (le_nearest _ _)
    rw [← Nat.div_div_eq_div_mul, Nat.le_div_iff_mul_le (spacing_pos _), Nat.mul_comm, ← hc]
    exact Nat.log2_self_le hpos
  have hunits : 2 ^ k ≤ nearest num (den * spacing (num / den)) * spacing (num / den) := by
    refine Nat.le_trans hle ?_
    rw [hc, Nat.mul_comm]
    exact Nat.mul_le_mul_right _ hnearest
  unfold round
  dsimp only
  split
  · exact .finite hunits
  · exact .infinite

theorem round_nonneg_cases (num den : Nat) :
    round false num den = .infinite false ∨ ∃ u, round false num den = .finite false u := by
  unfold round
  dsimp only
  split
  · exact .inr ⟨_, rfl⟩
  · exact .inl rfl

/-! ### Integers and their quotients -/

/-- A number that is finite. -/
def finite? : Binary64 → Option Binary64
  | .finite s u => some (.finite s u)
  | _ => none

-- the two functions are opened under another name, as `round` would be computed otherwise
theorem ofInt?_eq {n : Int} (h : round (n < 0) (n.natAbs * one) 1 = x) : ofInt? n = x.finite? := by
  obtain ⟨f, hf⟩ : ∃ f, f = ofInt? := ⟨_, rfl⟩
  rw [← hf]
  delta ofInt? at hf
  rw [hf]
  beta_reduce
  rw [h]
  rfl

theorem ratio?_finite {n d : Int} {s : Bool} {u : Nat}
    (h : round ((n < 0) != (d < 0)) (n.natAbs * one) d.natAbs = .finite s u) :
    ratio? n d = some (.finite (s && n != 0) u) := by
  obtain ⟨f, hf⟩ : ∃ f, f = ratio? := ⟨_, rfl⟩
  rw [← hf]
  delta ratio? at hf
  rw [hf]
  beta_reduce
  rw [h]

theorem ratio?_eq {n d : Int} {u : Nat}
    (h : round ((n < 0) != (d < 0)) (n.natAbs * one) d.natAbs = .finite false u) :
    ratio? n d = some (.finite false u) := ratio?_finite h

theorem ratio?_infinite {n d : Int} {s : Bool}
    (h : round ((n < 0) != (d < 0)) (n.natAbs * one) d.natAbs = .infinite s) : ratio? n d = none := by
  obtain ⟨f, hf⟩ : ∃ f, f = ratio? := ⟨_, rfl⟩
  rw [← hf]
  delta ratio? at hf
  rw [hf]
  beta_reduce
  rw [h]

theorem ratio?_natCast (n d : Nat) : ratio? n d = (round false (n * one) d).finite? := by
  have hround : round (decide ((n : Int) < 0) != decide ((d : Int) < 0)) ((n : Int).natAbs * one)
      (d : Int).natAbs = round false (n * one) d := by
    rw [decide_eq_false (by omega), decide_eq_false (by omega), Int.natAbs_natCast,
      Int.natAbs_natCast]
    rfl
  rcases round_nonneg_cases (n * one) d with hr | ⟨u, hr⟩
  · rw [ratio?_infinite (hround.trans hr), hr]
    rfl
  · rw [ratio?_eq (hround.trans hr), hr]
    rfl

theorem ofInt?_eq_some {n : Int} (h : ofInt? n = some x) :
    round (n < 0) (n.natAbs * one) 1 = x := by
  generalize hr : round (n < 0) (n.natAbs * one) 1 = r
  rw [ofInt?_eq hr] at h
  cases r with
  | finite s u => exact Option.some.inj h
  | _ => cases h

/-- An integer of up to 53 bits is a floating point number. -/
theorem ofInt?_natCast {n : Nat} (hn : n < 2 ^ 53) : ofInt? n = some (.ofNat n) := by
  have hround : round false (n * 2 ^ oneExponent * 1) 1 = .finite false (n * 2 ^ oneExponent) :=
    round_exact hn (by simp [oneExponent, limitExponent]) Nat.one_pos
  rw [← one_eq, Nat.mul_one] at hround
  have hsign : decide ((n : Int) < 0) = false := by simp
  rw [← hsign] at hround
  exact ofInt?_eq hround

/-- The floating point number of an integer is as far from zero. -/
theorem ofInt?_reaches {n : Int} (hn : 2 ^ k ≤ n.natAbs) (h : ofInt? n = some x) :
    x.Reaches (n < 0) (k + oneExponent) := by
  rw [← ofInt?_eq_some h]
  refine round_reaches _ Nat.one_pos ?_
  rw [Nat.mul_one, Nat.pow_add, ← one_eq]
  exact Nat.mul_le_mul_right one hn

theorem ofInt?_natCast_reaches {n : Nat} (hn : 2 ^ k ≤ n) (h : ofInt? n = some x) :
    x.Reaches false (k + oneExponent) := by
  have hreaches := ofInt?_reaches hn h
  rwa [decide_eq_false (by omega : ¬ (n : Int) < 0)] at hreaches

/-! ### Arithmetic of small integers -/

theorem mul_natCast {n s : Nat} (hn : ofInt? n = some x) (hs : ofInt? s = some y) (hs0 : 0 < s)
    (hns : n * s < 2 ^ 53) : x.mul y = .ofNat (n * s) := by
  have hmul : x.mul y = round false (n * s * 2 ^ oneExponent * one) one := by
    have hle : n ≤ n * s := Nat.le_mul_of_pos_right n hs0
    rw [ofInt?_natCast (Nat.lt_of_le_of_lt hle hns)] at hn
    cases hn
    rw [← one_eq]
    by_cases hn0 : n = 0
    · -- the other factor may have any number of bits
      subst hn0
      have hfinite := hs.symm.trans (ofInt?_eq (ofInt?_eq_some hs))
      cases ofInt?_natCast_reaches (k := 0) hs0 hs with
      | infinite => cases hfinite
      | @finite v hv => simp only [mul, ofNat, Nat.zero_mul, bne_self_eq_false]
    · have hle : s ≤ n * s := Nat.le_mul_of_pos_left s (Nat.pos_of_ne_zero hn0)
      rw [ofInt?_natCast (Nat.lt_of_le_of_lt hle hns)] at hs
      cases hs
      simp only [mul, ofNat, bne_self_eq_false]
      rw [Nat.mul_mul_mul_comm, Nat.mul_assoc (n * s)]
  rw [hmul, round_exact hns (by simp [oneExponent, limitExponent]) one_pos, ← one_eq, ofNat]

theorem div?_ofNat {n d : Nat} (hd : 0 < d) :
    (ofNat n).div? (.ofNat d) = some (round false (n * one) d) := by
  obtain ⟨v, hv⟩ := Nat.exists_eq_succ_of_ne_zero (Nat.ne_of_gt (Nat.mul_pos hd one_pos))
  rw [← round_scale false (n * one) d one_pos, hv, ofNat, ofNat, hv]
  rfl

/-! ### Arithmetic above a power of two -/

theorem mul_reaches {j : Nat} (hx : x.Reaches false (j + oneExponent))
    (hy : y.Reaches false (k + oneExponent)) : (x.mul y).Reaches false (j + k + oneExponent) := by
  have hpos (e u : Nat) (h : 2 ^ e ≤ u) : u ≠ 0 :=
    Nat.ne_of_gt (Nat.lt_of_lt_of_le (Nat.two_pow_pos e) h)
  cases hx with
  | infinite =>
    cases hy with
    | infinite => exact .infinite
    | @finite v hv =>
      simp only [mul, if_neg (hpos _ v hv)]
      exact .infinite
  | @finite u hu =>
    cases hy with
    | infinite =>
      simp only [mul, if_neg (hpos _ u hu)]
      exact .infinite
    | @finite v hv =>
      simp only [mul, bne_self_eq_false]
      refine round_reaches false one_pos ?_
      calc 2 ^ (j + k + oneExponent) * one = 2 ^ (j + oneExponent) * 2 ^ (k + oneExponent) := by
            rw [one_eq]
            generalize oneExponent = e
            rw [← Nat.pow_add, ← Nat.pow_add]
            congr 1
            omega
        _ ≤ u * v := Nat.mul_le_mul hu hv

theorem div?_reaches {d j : Nat} (hd : 0 < d) (hj : d ≤ 2 ^ j) (hx : x.Reaches false (k + j))
    (h : x.div? (.ofNat d) = some z) : z.Reaches false k := by
  obtain ⟨v, hv⟩ := Nat.exists_eq_succ_of_ne_zero (Nat.ne_of_gt (Nat.mul_pos hd one_pos))
  rw [ofNat, hv] at h
  cases hx with
  | infinite =>
    cases Option.some.inj h
    exact .infinite
  | @finite u hu =>
    rw [← Option.some.inj h, ← hv]
    refine round_reaches false (Nat.mul_pos hd one_pos) ?_
    rw [← Nat.mul_assoc]
    refine Nat.mul_le_mul_right one (Nat.le_trans ?_ hu)
    rw [Nat.pow_add]
    exact Nat.mul_le_mul_left _ hj

theorem add_half_reaches (hx : x.Reaches false k) : (x.add half).Reaches false k := by
  cases hx with
  | infinite => exact .infinite
  | @finite u hu =>
    have hpos : 0 < u := Nat.lt_of_lt_of_le (Nat.two_pow_pos k) hu
    simp only [half, add, signed]
    generalize one / 2 = v
    have hsum : (u : Int) + v = (u + v : Nat) := by omega
    have hzero : ¬ ((u + v : Nat) : Int) = 0 := by omega
    have hneg : decide (((u + v : Nat) : Int) < 0) = false := decide_eq_false (by omega)
    simp only [Bool.false_eq_true, if_false, hsum, if_neg hzero, hneg, Int.natAbs_natCast]
    exact round_reaches false Nat.one_pos (by omega)

/-- A number above a power of two has an integer part above it. -/
theorem integerPart_reaches {n : Int} (hx : x.Reaches false (k + oneExponent))
    (h : Value.integerPart x = .ok n) : 2 ^ k ≤ n := by
  cases hx with
  | infinite => cases h
  | @finite u hu =>
    cases h
    have hle : 2 ^ k ≤ u / one := by
      rw [Nat.le_div_iff_mul_le one_pos, one_eq, ← Nat.pow_add]
      exact hu
    simp only [signed, Bool.false_eq_true, if_false]
    exact_mod_cast hle

/-! ### Signs -/

theorem Reaches.not_le (hx : x.Reaches true k) : (ofNat 0).le x = false := by
  cases hx with
  | infinite => rfl
  | @finite u hu =>
    have hpos : 0 < u := Nat.lt_of_lt_of_le (Nat.two_pow_pos k) hu
    simp only [le, lt, same, ofNat, signed, Nat.zero_mul, if_true, Bool.false_eq_true, if_false,
      Bool.or_eq_false_iff, decide_eq_false_iff_not, beq_eq_false_iff_ne]
    omega

/-- An integer whose floating point number is not below zero is not below zero. -/
theorem nonneg_of_le {n : Int} (h : ofInt? n = some x) (hx : (ofNat 0).le x) : 0 ≤ n := by
  by_contra hn
  have hreaches := ofInt?_reaches (k := 0) (by omega) h
  rw [decide_eq_true (by omega : n < 0)] at hreaches
  rw [hreaches.not_le] at hx
  cases hx

theorem le_of_lt (h : x.lt y) : x.le y := by
  rw [le, h]
  rfl

theorem not_lt_of_le (h : x.le y) : y.lt x = false := by
  cases x <;> cases y <;> grind [le, lt, same]

theorem not_le_of_lt (h : x.lt y) : y.le x = false := by
  cases x <;> cases y <;> grind [le, lt, same]

theorem lt_of_not_le (h : x.le y = false) (hx : x ≠ .nan) (hy : y ≠ .nan) : y.lt x := by
  cases x <;> cases y <;> grind [le, lt, same]

theorem pos_of_lt {n : Int} (h : ofInt? n = some x) (hx : (ofNat 0).lt x) : 0 < n := by
  have hle : 0 ≤ n := nonneg_of_le h (le_of_lt hx)
  by_contra hn
  obtain rfl : n = (0 : Nat) := by omega
  rw [ofInt?_natCast (by decide)] at h
  cases h
  simp [lt, ofNat] at hx

/-! ### Whole numbers -/

/-- A whole number has the units of its integer part. -/
theorem signed_of_whole {units : Nat} {n : Int} (hw : (finite negative units).isWhole)
    (ht : (finite negative units).truncate? = some n) : signed negative units = n * one := by
  simp only [isWhole, beq_iff_eq] at hw
  simp only [truncate?, Option.some.injEq] at ht
  have hpos := one_pos
  generalize one = e at hw ht hpos ⊢
  obtain ⟨k, rfl⟩ := Nat.dvd_of_mod_eq_zero hw
  rw [Nat.mul_div_cancel_left k hpos] at ht
  rw [← ht, Int.mul_comm]
  cases negative with
  | false => exact Int.natCast_mul e k
  | true => exact (congrArg Neg.neg (Int.natCast_mul e k)).trans (Int.mul_neg e k).symm

/-- What stands for a number from zero on is not below zero. -/
theorem not_lt_zero {units : Nat} {n : Int} (h : signed negative units = n * one) (hn : 0 ≤ n) :
    (finite negative units).lt (ofNat 0) = false := by
  have hzero : signed false (0 * one) = 0 := by
    rw [Nat.zero_mul]
    rfl
  rw [ofNat, lt, h, hzero]
  exact decide_eq_false (Int.not_lt.mpr (Int.mul_nonneg hn (Int.natCast_nonneg one)))

theorem signed_natAbs (n : Int) (e : Nat) : signed (n < 0) (n.natAbs * e) = n * e := by
  unfold signed
  by_cases h : n < 0
  · rw [decide_eq_true h, if_pos rfl, Int.natCast_mul, Int.ofNat_natAbs_of_nonpos (by omega),
      Int.neg_mul, Int.neg_neg]
  · rw [decide_eq_false h, if_neg nofun, Int.natCast_mul, Int.natAbs_of_nonneg (by omega)]

end Binary64

theorem Value.integerPart_eq_ok {x : Binary64} {n : Int} :
    integerPart x = .ok n ↔ x.truncate? = some n := by
  unfold integerPart
  cases x.truncate? <;> simp

theorem Value.realOfInt_eq_ok {n : Int} {x : Binary64} :
    realOfInt n = .ok x ↔ Binary64.ofInt? n = some x := by
  obtain ⟨f, hf⟩ : ∃ f, f = realOfInt := ⟨_, rfl⟩
  rw [← hf]
  delta realOfInt at hf
  rw [hf]
  beta_reduce
  generalize Binary64.ofInt? n = y
  cases y <;> simp

namespace Quantity
variable {p q : Quantity} {x y z : Binary64} {d : Nat} {steps : Int}

theorem same_whole {negative : Bool} {units : Nat} {n : Int} (hq : q.exact = .finite negative units)
    (h : Binary64.signed negative units = n * Binary64.one) : q.same (.whole n) := by
  rw [same, hq, exact, Binary64.same, h, Binary64.signed_natAbs]
  exact beq_self_eq_true _

theorem same_self (n : Int) : same (.whole n) (.whole n) :=
  same_whole rfl (Binary64.signed_natAbs n _)

/-- A number that is not known to be zero or below is above zero, unless it is no number. -/
theorem pos_of_isNotPositive (h : q.isNotPositive = false) (hnan : q ≠ .real .nan) :
    (whole 0).lt q := by
  cases q with
  | whole n =>
    have hn : 0 < n := Int.not_le.mp (of_decide_eq_false h)
    have hunits : (0 : Int) * Binary64.one < n * Binary64.one := by
      rw [Int.zero_mul]
      exact Int.mul_pos hn (Int.natCast_pos.mpr Binary64.one_pos)
    rw [← Binary64.signed_natAbs 0, ← Binary64.signed_natAbs n] at hunits
    exact decide_eq_true hunits
  | real x =>
    have hzero : (whole 0).exact = .ofNat 0 := by
      rw [exact, Binary64.ofNat, Int.natAbs_zero, decide_eq_false (Int.lt_irrefl 0)]
    rw [lt, hzero]
    refine Binary64.lt_of_not_le (y := .ofNat 0) h (fun hx => hnan (congrArg real hx)) ?_
    rw [Binary64.ofNat]
    exact nofun

theorem eq_float_of_ofValue? {v : Value} (h : ofValue? v = some (.real x)) : v = .float x := by
  cases v <;> cases h
  rfl

/-! ### Motor steps -/

theorem toReal_whole {n : Int} : toReal (.whole n) = .ok x ↔ Binary64.ofInt? n = some x := by
  rw [toReal, Value.realOfInt_eq_ok]

theorem div_real (hd : d < 2 ^ 53) (h : div (.real x) (.whole d) = .ok z) :
    x.div? (.ofNat d) = some z := by
  obtain ⟨a, ha, h⟩ := bind_eq_ok.mp h
  obtain ⟨b, hb, h⟩ := bind_eq_ok.mp h
  cases ha
  rw [toReal_whole, Binary64.ofInt?_natCast hd] at hb
  cases hb
  split at h
  · next w hw =>
    cases h
    exact hw
  · cases h

theorem div_whole {n : Int} (hd : 0 < d) (hz : Binary64.ratio? n d = some z) :
    div (.whole n) (.whole d) = .ok z := by
  simp only [div, if_neg (show (d : Int) ≠ 0 by omega), hz]

theorem ratio?_of_div {n : Int} (hd : 0 < d) (h : div (.whole n) (.whole d) = .ok z) :
    Binary64.ratio? n d = some z := by
  simp only [div, if_neg (show (d : Int) ≠ 0 by omega)] at h
  split at h
  · next w hw =>
    cases h
    exact hw
  · cases h

/-- A product is taken as floating point numbers unless both sides are whole. -/
theorem mul_real (hp : p.toReal = .ok x) (hq : q.toReal = .ok y) :
    mul p q = .ok (.real (x.mul y)) ∨ ∃ n m, p = .whole n ∧ q = .whole m := by
  have hmul : (do return .real ((← p.toReal).mul (← q.toReal)) : Except Mismatch Quantity) =
    .ok (.real (x.mul y)) := bind_eq_ok.mpr ⟨x, hp, bind_eq_ok.mpr ⟨y, hq, rfl⟩⟩
  cases p with
  | real a => exact .inl hmul
  | whole n =>
    cases q with
    | real b => exact .inl hmul
    | whole m => exact .inr ⟨n, m, rfl, rfl⟩

section
variable {n s : Nat}

/-- A product of up to 53 bits has the same quotients as one of floating point numbers. -/
theorem ratio?_mul (hn : Binary64.ofInt? n = some x) (hs : Binary64.ofInt? s = some y)
    (hns : n * s < 2 ^ 53) (hs0 : 0 < s) (hd : 0 < d) (hz : (x.mul y).div? (.ofNat d) = some z)
    (hsteps : Value.integerPart (z.add .half) = .ok steps) :
    Binary64.ratio? (n * s : Nat) d = some z := by
  rw [Binary64.mul_natCast hn hs hs0 hns, Binary64.div?_ofNat hd] at hz
  rcases Binary64.round_nonneg_cases (n * s * Binary64.one) d with hr | ⟨u, hr⟩
  · rw [hr] at hz
    rw [← Option.some.inj hz] at hsteps
    cases hsteps
  · rw [hr] at hz
    rw [← Option.some.inj hz]
    refine Binary64.ratio?_eq ?_
    rwa [decide_eq_false (by omega), decide_eq_false (by omega)]

/-- A product of more bits makes more steps than an attribute holds. -/
theorem le_steps (hn : Binary64.ofInt? n = some x) (hs : Binary64.ofInt? s = some y)
    (hns : 2 ^ 53 ≤ n * s) (hd : 0 < d) (hd' : d ≤ 2 ^ 10) (hz : (x.mul y).div? (.ofNat d) = some z)
    (hsteps : Value.integerPart (z.add .half) = .ok steps) : 2 ^ 42 ≤ steps := by
  have hn0 : n ≠ 0 := by
    rintro rfl
    omega
  have hs0 : s ≠ 0 := by
    rintro rfl
    omega
  have hxn := Binary64.ofInt?_natCast_reaches (Nat.log2_self_le hn0) hn
  have hys := Binary64.ofInt?_natCast_reaches (Nat.log2_self_le hs0) hs
  have hbits : 52 ≤ n.log2 + s.log2 := by
    by_contra hlt
    have hlarge : n * s < 2 ^ (n.log2 + 1) * 2 ^ (s.log2 + 1) :=
      Nat.mul_lt_mul_of_lt_of_lt Nat.lt_log2_self Nat.lt_log2_self
    rw [← Nat.pow_add] at hlarge
    have hle : 2 ^ (n.log2 + 1 + (s.log2 + 1)) ≤ 2 ^ 53 := Nat.pow_le_pow_right (by decide) (by omega)
    omega
  have hmul : (x.mul y).Reaches false (n.log2 + s.log2 - 10 + Binary64.oneExponent + 10) := by
    have hreaches := Binary64.mul_reaches hxn hys
    rwa [show n.log2 + s.log2 + Binary64.oneExponent =
      n.log2 + s.log2 - 10 + Binary64.oneExponent + 10 by omega] at hreaches
  have hle := Binary64.integerPart_reaches (Binary64.add_half_reaches
    (Binary64.div?_reaches hd hd' hmul hz)) hsteps
  have hpow : (2 : Int) ^ 42 ≤ 2 ^ (n.log2 + s.log2 - 10) := by
    exact_mod_cast Nat.pow_le_pow_right (by decide) (by omega)
  omega

end

/-- Motor steps of numbers that have been read as floating point numbers are those of the numbers
themselves, as long as they fit an attribute. -/
theorem stepsFor_toReal (hp : p.toReal = .ok x) (hq : q.toReal = .ok y)
    (hx : (Binary64.ofNat 0).le x) (hy : (Binary64.ofNat 0).lt y) (hd : 0 < d) (hd' : d ≤ 2 ^ 10)
    (h : stepsFor (.real x) (.real y) (.whole d) = .ok steps) (hsteps : steps < 2 ^ 42) :
    stepsFor p q (.whole d) = .ok steps := by
  obtain ⟨t, ht, h⟩ := bind_eq_ok.mp h
  cases ht
  rcases mul_real hp hq with hmul | ⟨n, s, rfl, rfl⟩
  · exact bind_eq_ok.mpr ⟨_, hmul, h⟩
  · obtain ⟨z, hz, h⟩ := bind_eq_ok.mp h
    have hz := div_real (Nat.lt_of_le_of_lt hd' (by decide)) hz
    have hn := toReal_whole.mp hp
    have hs := toReal_whole.mp hq
    obtain ⟨n, rfl⟩ := Int.eq_ofNat_of_zero_le (Binary64.nonneg_of_le hn hx)
    obtain ⟨s, rfl⟩ := Int.eq_ofNat_of_zero_le (Binary64.nonneg_of_le hs (Binary64.le_of_lt hy))
    have hs0 := Binary64.pos_of_lt hs hy
    by_cases hns : n * s < 2 ^ 53
    · refine bind_eq_ok.mpr ⟨.whole (n * s : Nat), rfl, bind_eq_ok.mpr ⟨z, ?_, h⟩⟩
      exact div_whole hd (ratio?_mul hn hs hns (by omega) hd hz h)
    · have hle := le_steps hn hs (by omega) hd hd' hz h
      omega

end Quantity

end Commissioning

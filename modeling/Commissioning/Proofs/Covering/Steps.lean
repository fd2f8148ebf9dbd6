import Commissioning.Proofs.Covering.Acceptance
import Commissioning.Proofs.Number.HalfUp

/-!
Steps of whole durations. A duration in whole units at a whole speed has as many steps as the exact
quotient rounded half up, although it is taken by way of floating point numbers; so steps grow with the
duration and with the speed, and a request is accepted exactly if the exact quotients of its durations
stay below `65535 + ½`.

    lift_to_tilt_transition_ms: 1500, steps_per_second: 33    49.5 ──▶ 50
-/
namespace Commissioning

/-! ### Quotients that are too large -/

namespace Binary64

/-- A quotient above a power of two is above it as a floating point number. -/
theorem ratio?_reaches {x d k : Nat} {z : Binary64} (hd : 0 < d) (hx : 2 ^ k * d ≤ x)
    (h : ratio? x d = some z) : z.Reaches false (k + oneExponent) := by
  have hreaches : (round false (x * one) d).Reaches false (k + oneExponent) := by
    refine round_reaches false hd ?_
    rw [Nat.pow_add, ← one_eq, Nat.mul_right_comm]
    exact Nat.mul_le_mul_right one hx
  rw [ratio?_natCast] at h
  cases hr : round false (x * one) d with
  | finite s u =>
    rw [hr] at h hreaches
    cases h
    exact hreaches
  | _ =>
    rw [hr] at h
    cases h

end Binary64

namespace Quantity
variable {v s d k : Nat} {steps : Int}

theorem le_stepsFor_whole (hd : 0 < d) (hx : 2 ^ k * d ≤ v * s)
    (h : stepsFor (.whole v) (.whole s) (.whole d) = .ok steps) : 2 ^ k ≤ steps := by
  obtain ⟨t, ht, h⟩ := bind_eq_ok.mp h
  cases ht
  obtain ⟨z, hz, h⟩ := bind_eq_ok.mp h
  have hratio : Binary64.ratio? (v * s : Nat) d = some z := by
    rw [Int.natCast_mul]
    exact ratio?_of_div hd hz
  exact Binary64.integerPart_reaches (Binary64.add_half_reaches (Binary64.ratio?_reaches hd hx hratio)) h

/-- Whole durations at whole speeds have steps that fit an attribute exactly if the exact quotient is
below the greatest one and a half. -/
theorem stepsFor_le_iff (hd : 0 < d) (hd' : d ≤ 2 ^ 10) :
    (∃ steps, stepsFor (.whole v) (.whole s) (.whole d) = .ok steps ∧ steps ≤ Covering.maximum) ↔
      2 * v * s + d < 131072 * d := by
  rw [Nat.mul_assoc]
  by_cases hx : v * s < d * 2 ^ 16
  · have hsteps := stepsFor_whole hd hx (Nat.le_trans (Nat.mul_le_mul_right _ hd') (by decide))
    have hlimit : halfUp (v * s) d < 65536 ↔ 2 * (v * s) + d < 131072 * d := by
      rw [halfUp, Nat.div_lt_iff_lt_mul (by omega)]
      omega
    rw [← hlimit, hsteps]
    unfold Covering.maximum
    constructor
    · rintro ⟨_, ⟨⟩, hle⟩
      omega
    · intro hlt
      exact ⟨_, rfl, by omega⟩
  · constructor
    · rintro ⟨steps, hsteps, hle⟩
      have hlarge := le_stepsFor_whole (k := 16) hd (by omega) hsteps
      unfold Covering.maximum at hle
      omega
    · intro hlt
      omega

end Quantity

namespace Covering
variable {given : Entries} {s : Nat}

/-- The options of a request without its durations. -/
def withoutDurations (given : Entries) : Entries :=
  given.filter fun e => !(conversions.map Conversion.source).contains e.1

/-- A request whose durations and speed are whole numbers, and whose other options are accepted. -/
structure WholeDurations (given : Entries) (s : Nat) : Prop where
  speed : Quantity.ofValue? (askedSpeed given) = some (.whole s)
  durations : ∀ c ∈ conversions, given.get c.source = .null ∨
    ∃ v : Nat, Quantity.ofValue? (given.get c.source) = some (.whole v)
  others : ∃ o, (validate (.dict (withoutDurations given))).outcome = .ok o

theorem converts_iff {c : Conversion} {v : Nat} (hc : c ∈ conversions)
    (hspeed : Quantity.ofValue? (askedSpeed given) = some (.whole s))
    (hv : Quantity.ofValue? (given.get c.source) = some (.whole v)) :
    Converts given c ↔ 2 * v * s + c.divisor < 131072 * c.divisor := by
  obtain ⟨hd, hd'⟩ := divisor_bounds c hc
  have hsign : (Quantity.whole v).isNegative = false :=
    decide_eq_false (Int.not_lt.mpr (Int.natCast_nonneg v))
  have hnumber : requireNumber c.source (given.get c.source) = .ok (.whole v) :=
    requireNumber_eq_ok hv hsign
  rw [← Quantity.stepsFor_le_iff hd hd']
  constructor
  · rintro ⟨duration, speed, steps, hduration, hspeed', hsteps, hle⟩
    cases hnumber.symm.trans hduration
    cases hspeed.symm.trans hspeed'
    exact ⟨steps, hsteps, hle⟩
  · rintro ⟨steps, hsteps, hle⟩
    exact ⟨_, _, steps, hnumber, hspeed, hsteps, hle⟩

theorem get_withoutDurations (given : Entries) {key : String}
    (hkey : key ∉ conversions.map Conversion.source) :
    (withoutDurations given).get key = given.get key := by
  have hget : (withoutDurations given).get? key = given.get? key :=
    Entries.get?_filter given (fun k => !(conversions.map Conversion.source).contains k)
      (by simpa using hkey)
  rw [Entries.get, Entries.get, hget]

theorem attribute_notSource : ∀ key ∈ baseAttributes ++ overrideAttributes,
    key ∉ conversions.map Conversion.source := by decide

/-- Whether a request is accepted is a question of its durations if everything else is. -/
theorem WholeDurations.accepted_iff (h : WholeDurations given s) :
    Accepted given ↔ ∀ c ∈ conversions, given.get c.source ≠ .null → Converts given c := by
  refine ⟨Accepted.durations, fun hdurations => ?_⟩
  have hothers := exists_validated.mp h.others
  have hspeed := get_withoutDurations given (by decide : speedKey ∉ conversions.map Conversion.source)
  have hflag := get_withoutDurations given
    (by decide : calibrateKey ∉ conversions.map Conversion.source)
  constructor
  case names =>
    intro key hkey
    by_cases hsource : key ∈ conversions.map Conversion.source
    · obtain ⟨c, hc, rfl⟩ := List.mem_map.mp hsource
      exact source_known c hc
    · obtain ⟨e, he, rfl⟩ := List.mem_map.mp hkey
      exact hothers.names e.1 (List.mem_map_of_mem (List.mem_filter.mpr ⟨he, by simpa using hsource⟩))
  case speed => exact readSpeed_congr hspeed ▸ hothers.speed
  case attributes =>
    intro key hkey
    rw [← get_withoutDurations given (attribute_notSource key hkey)]
    exact hothers.attributes key hkey
  case durations => exact hdurations
  case flag => exact readFlag_congr hflag ▸ hothers.flag

/-- Steps of whole durations, as they are computed for operands of any kind. -/
theorem stepsOfOperands_halfUp {v d : Nat} (hd : d = 1 ∨ d = 1000) (h : v * s ≤ 10 ^ 15) :
    stepsOfOperands (.int v) (.int s) (.int d) = .ok ((2 * v * s + d) / (2 * d) : Nat) := by
  have hproduct : Value.product (.int v) (.int s) = .ok (.whole (v * s)) := rfl
  have hdivisor : Quantity.ofOperand (.int d) = .ok (.whole d) := rfl
  rw [stepsOfOperands, hproduct, hdivisor]
  exact Quantity.stepsFor_halfUp hd h

/-- Steps of whole durations are rounded half up, so they grow with duration and speed, and whole
durations are accepted exactly if their steps fit an attribute. -/
theorem steps_half_up :
    (∀ v s d : Nat, d = 1 ∨ d = 1000 → v * s ≤ 10 ^ 15 →
      stepsOfOperands (.int v) (.int s) (.int d) = .ok ((2 * v * s + d) / (2 * d) : Nat)) ∧
    (∀ v v' s s' d : Nat, d = 1 ∨ d = 1000 → v ≤ v' → s ≤ s' → v' * s' ≤ 10 ^ 15 →
      ∃ n n', stepsOfOperands (.int v) (.int s) (.int d) = .ok n ∧
        stepsOfOperands (.int v') (.int s') (.int d) = .ok n' ∧ n ≤ n') ∧
    ∀ given s, WholeDurations given s →
      ((∃ o, (validate (.dict given)).outcome = .ok o) ↔ ∀ c ∈ conversions, ∀ v : Nat,
        Quantity.ofValue? (given.get c.source) = some (.whole v) →
          2 * v * s + c.divisor < 131072 * c.divisor) := by
  refine ⟨fun v s d hd h => ?_, fun v v' s s' d hd hv hs h => ?_, fun given s h => ?_⟩
  · exact stepsOfOperands_halfUp hd h
  · have hle : v * s ≤ v' * s' := Nat.mul_le_mul hv hs
    have hmono : (2 * v * s + d) / (2 * d) ≤ (2 * v' * s' + d) / (2 * d) := by
      rw [Nat.mul_assoc, Nat.mul_assoc]
      exact halfUp_mono hle
    exact ⟨_, _, stepsOfOperands_halfUp hd (Nat.le_trans hle h), stepsOfOperands_halfUp hd h,
      Int.ofNat_le.mpr hmono⟩
  · rw [exists_validated, h.accepted_iff]
    constructor
    · intro hall c hc v hv
      refine (converts_iff hc h.speed hv).mp (hall c hc ?_)
      intro hnull
      rw [hnull] at hv
      cases hv
    · intro hall c hc hne
      obtain ⟨v, hv⟩ := (h.durations c hc).resolve_left hne
      exact (converts_iff hc h.speed hv).mpr (hall c hc v hv)

/-- A transition of 49.5 steps. -/
def halfStep : Entries := [(transitionKey, .int 1500), (speedKey, .int 33)]

theorem halfStep_whole : WholeDurations halfStep 33 where
  speed := rfl
  durations := List.forall_iff_forall_mem.mp
    ⟨.inl rfl, .inl rfl, .inr ⟨1500, rfl⟩, .inr ⟨1500, rfl⟩⟩
  others := by
    have hknown : ∀ key ∈ (withoutDurations halfStep).map Prod.fst, key ∈ knownKeys := by decide
    rw [validate_of_known hknown]
    exact ⟨_, rfl⟩

theorem steps_half_up_transition :
    stepsOfOperands (.int 1500) (.int 33) (.int 1000) = .ok 50 ∧
    (∃ n n', stepsOfOperands (.int 1500) (.int 33) (.int 1000) = .ok n ∧
      stepsOfOperands (.int 1600) (.int 33) (.int 1000) = .ok n' ∧ n ≤ n') ∧
    WholeDurations halfStep 33 ∧ ∃ o, (validate (.dict halfStep)).outcome = .ok o := by
  obtain ⟨hsteps, hgrow, haccepted⟩ := steps_half_up
  refine ⟨hsteps 1500 33 1000 (.inr rfl) (by decide),
    hgrow 1500 1600 33 33 1000 (.inr rfl) (by decide) (by decide) (by decide), halfStep_whole, ?_⟩
  refine (haccepted halfStep 33 halfStep_whole).mpr (List.forall_iff_forall_mem.mp ⟨?_, ?_, ?_, ?_⟩)
  case refine_1 | refine_2 =>
    rintro v ⟨⟩
  case refine_3 | refine_4 =>
    intro v hv
    cases hv
    decide

end Covering

end Commissioning

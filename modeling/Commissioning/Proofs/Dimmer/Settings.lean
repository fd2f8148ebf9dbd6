import Commissioning.Dimmer.Settings
import Commissioning.Proofs.Logged
import Mathlib.Data.Int.Bitwise

/-!
What the checked settings of a dimmer have to do with the request, and what its numbers tell. The
capabilities and the status are read bit by bit, the mode by its two low bits; numbers below zero have
bits like any other:

    mode  … 1 0                    status  7 6 . . 3 . 1 0
            └─┴── name of the mode         └─┴─────┴───┴─┴── named flags
-/
namespace Commissioning.Dimmer

theorem hasFlag_two_pow (n : Int) (i : Nat) : hasFlag n (2 ^ i) = n.testBit i := by
  have hpos : (0 : Int) < ((2 ^ i : Nat) : Int) := by exact_mod_cast Nat.two_pow_pos i
  cases n with
  | ofNat m =>
    change hasFlag (m : Int) (2 ^ i) = Nat.testBit m i
    rw [Nat.testBit_eq_decide_div_mod_eq, hasFlag, Bool.eq_iff_iff, beq_iff_eq, decide_eq_true_iff]
    generalize 2 ^ i = b
    omega
  | negSucc m =>
    change hasFlag (.negSucc m) (2 ^ i) = !Nat.testBit m i
    rw [Nat.testBit_eq_decide_div_mod_eq, hasFlag, Int.negSucc_ediv m hpos, Bool.eq_iff_iff,
      beq_iff_eq, Bool.not_eq_true', decide_eq_false_iff_not]
    change -((m : Int) / ((2 ^ i : Nat) : Int) + 1) % 2 = 1 ↔ _
    generalize 2 ^ i = b
    omega

/-- The bits at some places of a number, each under a name. -/
def bitsAt (places : List (String × Nat)) (n : Int) : Entries :=
  places.map fun (name, place) => (name, .bool (n.testBit place))

theorem decodeBits_places (places : List (String × Nat)) (n : Int) :
    decodeBits (places.map fun (name, place) => (name, 2 ^ place)) n = bitsAt places n := by
  rw [decodeBits, bitsAt, List.map_map]
  refine List.map_congr_left fun e _ => ?_
  change (e.1, Value.bool (hasFlag n (2 ^ e.2))) = (e.1, Value.bool (n.testBit e.2))
  rw [hasFlag_two_pow]

/-- The places of the capabilities. -/
def capabilityPlaces : List (String × Nat) := [
  ("forward_phase_control", 0),
  ("reverse_phase_control", 1),
  ("reactance_discriminator", 5),
  ("configurable_curve", 6),
  ("overload_detection", 7)]

/-- The places of the status. -/
def statusPlaces : List (String × Nat) := [
  ("forward_phase_control", 0),
  ("reverse_phase_control", 1),
  ("overload", 3),
  ("capacitive_load", 6),
  ("inductive_load", 7)]

theorem decode_capabilities (n : Int) : decodeBits capabilityBits n = bitsAt capabilityPlaces n :=
  decodeBits_places capabilityPlaces n

theorem decode_status (n : Int) : decodeBits statusBits n = bitsAt statusPlaces n :=
  decodeBits_places statusPlaces n

/-- The name that the two low bits of a mode stand for. -/
def nameOfBits (mode : Int) : String :=
  match mode.testBit 1, mode.testBit 0 with
  | false, false => "automatic"
  | false, true => "forward"
  | true, false => "reverse"
  | true, true => "reserved"

theorem nameOfMode_eq (mode : Int) : PhaseControl.nameOfMode mode = nameOfBits mode := by
  have hlow : mode.testBit 0 = (mode % 2 == 1) := by
    rw [← hasFlag_two_pow, hasFlag]
    simp
  have hhigh : mode.testBit 1 = (mode / 2 % 2 == 1) := by
    rw [← hasFlag_two_pow, hasFlag]
    rfl
  have hmod : mode % 4 = 2 * (mode / 2 % 2) + mode % 2 := by omega
  rw [PhaseControl.nameOfMode, PhaseControl.ofMode?, nameOfBits, hlow, hhigh, hmod]
  rcases Int.emod_two_eq_zero_or_one mode with hl | hl <;>
    rcases Int.emod_two_eq_zero_or_one (mode / 2) with hh | hh <;> rw [hl, hh] <;> rfl

/-! ### Checked settings -/

variable {phase minimum v : Value} {s : Settings}

/-- The name of a technique as a request spells it. -/
def spelled (v : Value) : String := Text.lower (String.ofList (Text.trim v.toText.toList))

theorem name_of_ofName? {name : String} {q : PhaseControl} (h : PhaseControl.ofName? name = some q) :
    q.name = name := by
  have hfound := List.find?_some (p := fun p => PhaseControl.name p == name) h
  exact eq_of_beq hfound

theorem check_eq_ok (h : check phase minimum = .ok s) :
    readPhase phase = .ok s.phase ∧ readLevel minimum = .ok s.level := by
  unfold check at h
  split at h
  · cases h
  · obtain ⟨p, hp, h⟩ := bind_eq_ok.mp h
    obtain ⟨n, hn, h⟩ := bind_eq_ok.mp h
    cases h
    exact ⟨hp, hn⟩

/-- A technique is asked for by its name, or not at all. -/
theorem readPhase_eq_ok {p : Option PhaseControl} (h : readPhase v = .ok p) :
    v = .null ∧ p = none ∨ ∃ q, v ≠ .null ∧ p = some q ∧ q.name = spelled v := by
  unfold readPhase at h
  split at h
  · cases h
    exact .inl ⟨rfl, rfl⟩
  · next hgiven =>
    dsimp only at h
    split at h
    · next q hname =>
      cases h
      exact .inr ⟨q, hgiven, rfl, name_of_ofName? hname⟩
    · cases h

theorem readPhase_of_name (hgiven : v ≠ .null) {q : PhaseControl} (hname : q.name = spelled v) :
    readPhase v = .ok (some q) := by
  have hfound : PhaseControl.ofName? (spelled v) = some q := hname ▸ PhaseControl.ofName?_name q
  unfold readPhase
  split
  · exact absurd rfl hgiven
  · rw [spelled] at hfound
    dsimp only
    rw [hfound]

/-- A level is asked for by a number, or not at all. -/
theorem readLevel_eq_ok {l : Option Numeral} (h : readLevel v = .ok l) :
    v = .null ∧ l = none ∨ ∃ n, l = some n ∧ v = n.toValue := by
  unfold readLevel at h
  split at h
  · cases h
    exact .inl ⟨rfl, rfl⟩
  · split at h
    · next n hn =>
      split at h
      · cases h
        refine .inr ⟨n, rfl, ?_⟩
        cases v with
        | int n => exact (Option.some.inj hn) ▸ rfl
        | status code => exact (Option.some.inj hn) ▸ rfl
        | _ => cases hn
      · cases h
    · cases h

end Commissioning.Dimmer

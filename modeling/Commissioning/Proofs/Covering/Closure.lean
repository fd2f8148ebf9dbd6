import Commissioning.Proofs.Covering.Coerced
import Commissioning.Proofs.Lookup
import Commissioning.Proofs.Number.Range
import Commissioning.Proofs.Value.Showable

/-!
How the check of options ends. Whatever is given, each part of the check gives a result or an error of
its own, except for the steps of a duration: they are computed before they are compared, and a number
out of range ends the check with a failure of the arithmetic.

    speed ─▶ base ─▶ overrides ─▶ durations ─▶ flag ─▶ options
      └───────┴──────────┴───────────┼──────────┴────▶ error of the check ─▶ shown, if it can be
                                     └ duration * speed out of range ─▶ failure of the arithmetic

An error tells what has been given. An integer that is too long to be written takes its place by the
failure to write it.
-/
namespace Commissioning

/-! ### Errors that can be shown -/

/-- A value that can be shown, and so can its integer part: a floating point number is within the
range of its format. -/
def Value.Shows (v : Value) : Prop :=
  v.isShowable ∧ ∀ s u, v = .float (.finite s u) → u < Binary64.limit

theorem isWritable_of_le {n : Int} {k : Nat} (hk : k ≤ Number.digitLimit) (h : n.natAbs ≤ 2 ^ k) :
    Number.isWritable n := by
  have hlt : n.natAbs < 10 ^ Number.digitLimit := by
    calc n.natAbs ≤ 2 ^ k := h
      _ ≤ 2 ^ Number.digitLimit := Nat.pow_le_pow_right (by decide) hk
      _ < 10 ^ Number.digitLimit := Nat.pow_lt_pow_left (by decide) (by decide)
  exact Number.isWritable_of_lt hlt (by decide) (Nat.le_refl _)

/-- A finite number of the type has an integer part of about three hundred digits at most. -/
theorem isWritable_truncate? {x : Binary64} {n : Int} (hx : (Value.float x).Shows)
    (h : x.truncate? = some n) : Number.isWritable n := by
  cases x with
  | finite s u =>
    have hu : u ≤ 2 ^ Binary64.limitExponent := Nat.le_of_lt (Binary64.limit_eq ▸ hx.2 s u rfl)
    obtain ⟨m, hm, hle⟩ := Binary64.integerPart_upTo (x := .finite s u)
      (by simp [Binary64.oneExponent, Binary64.limitExponent]) ⟨s, u, rfl, hu⟩
    obtain rfl : m = n := Option.some.inj ((Value.integerPart_eq_ok.mp hm).symm.trans h)
    exact isWritable_of_le (by decide) hle
  | _ => cases h

namespace Covering
open Attribute
variable {α β : Type} {given : Entries} {key : String} {v : Value}

/-- Everything that is given can be shown. -/
def Shown (given : Entries) : Prop := ∀ e ∈ given, e.2.Shows

/-- The check of a request turns it down with an error of its own, or, if it holds what cannot be
shown, with the mismatch of that. -/
def TurnsDown (given : Entries) (e : Fault) : Prop :=
  (∃ e', e = .option e') ∨ e = .mismatch .unwritable ∧ ¬ Shown given

/-- The check of a request turns it down, or gives a result that has a property. -/
def Closes (given : Entries) (P : α → Prop) (r : Outcome α) : Prop :=
  (∃ e, r = .error e ∧ TurnsDown given e) ∨ ∃ a, r = .ok a ∧ P a

theorem turnsDown_raised {e : OptionError} (h : Shown given → e.isShowable) :
    TurnsDown given (Fault.option e).raised := by
  rcases Fault.raised_cases (.option e) with ⟨hraised, -⟩ | ⟨hraised, hhidden⟩
  · exact .inl ⟨e, hraised⟩
  · refine .inr ⟨hraised, fun hgiven => ?_⟩
    cases hhidden.symm.trans (h hgiven)

theorem closes_ok {P : α → Prop} {a : α} (h : P a) : Closes given P (.ok a) := .inr ⟨a, rfl, h⟩

theorem Closes.bind {P : α → Prop} {Q : β → Prop} {r : Outcome α} {f : α → Outcome β}
    (hr : Closes given P r) (hf : ∀ a, P a → Closes given Q (f a)) : Closes given Q (r >>= f) := by
  obtain ⟨e, rfl, he⟩ | ⟨a, rfl, ha⟩ := hr
  · exact .inl ⟨e, rfl, he⟩
  · exact hf a ha

theorem closes_mapError {r : Except OptionError α}
    (h : Shown given → ∀ e, r = .error e → e.isShowable) :
    Closes given (fun a => r = .ok a) (r.mapError fun e => (Fault.option e).raised) := by
  cases r with
  | ok a => exact .inr ⟨a, rfl, rfl⟩
  | error e => exact .inl ⟨_, rfl, turnsDown_raised fun hgiven => h hgiven e rfl⟩

theorem requireNumber_shows {e : OptionError} (hv : v.isShowable)
    (h : requireNumber key v = .error e) : e.isShowable := by
  unfold requireNumber at h
  split at h
  · cases h
    exact hv
  · split at h
    · cases h
      exact hv
    · cases h

theorem limited_shows {n : Numeral} {e : OptionError} (hn : Number.isWritable n.number)
    (h : (if maximum < n.number then .error (.tooLarge key n.number) else .ok n) =
      (.error e : Except OptionError Numeral)) : e.isShowable := by
  split at h
  · cases h
    exact hn
  · cases h

theorem requireAttribute_shows {e : OptionError} (hv : v.Shows)
    (h : requireAttribute key v = .error e) : e.isShowable := by
  rcases bind_eq_error.mp h with h | ⟨q, hq, h⟩
  · exact requireNumber_shows hv.1 h
  · have hq := requireNumber_ok hq
    cases v with
    | int k =>
      cases hq
      exact limited_shows (n := .plain k) hv.1 h
    | float x =>
      cases hq
      simp only at h
      split at h
      · next n _ ht => exact limited_shows (n := .plain n) (isWritable_truncate? hv ht) h
      · cases h
        exact hv.1
    | status k =>
      cases hq
      exact limited_shows (n := .status k) hv.1 h
    | _ => cases hq

/-! ### The parts of the check -/

theorem shows_get (hgiven : Shown given) (key : String) : (given.get key).Shows := by
  cases hget : given.get? key with
  | none =>
    rw [Entries.get_of_none hget]
    exact ⟨rfl, nofun⟩
  | some v =>
    rw [Entries.get_of_some hget]
    exact hgiven _ (mem_of_lookup hget)

theorem isShowable_askedSpeed (hgiven : Shown given) : (askedSpeed given).isShowable := by
  have hspeed := shows_get hgiven speedKey
  unfold askedSpeed
  split
  · exact Number.isWritable_of_natAbs_le (by decide)
  · exact hspeed.1

theorem speed_shows (hgiven : Shown given) {e : OptionError} (h : readSpeed given = .error e) :
    e.isShowable := by
  have hasked := isShowable_askedSpeed hgiven
  rcases bind_eq_error.mp h with h | ⟨q, -, h⟩
  · exact requireNumber_shows hasked h
  · split at h
    · cases h
      exact hasked
    · cases h

theorem closes_base (keys : List String) :
    Closes given (fun _ => True) (readBase given keys).outcome := by
  induction keys with
  | nil => exact closes_ok trivial
  | cons key keys ih =>
    by_cases hv : given.get key = .null
    · rw [readBase, hv]
      exact ih
    · rw [readBase_cons_outcome hv]
      refine (closes_mapError fun hgiven e => requireAttribute_shows (shows_get hgiven key)).bind ?_
      exact fun n _ => ih.bind fun rest _ => closes_ok trivial

theorem overrides_shows (hgiven : Shown given) {keys : List String} {e : OptionError}
    (h : readOverrides given keys = .error e) : e.isShowable := by
  induction keys with
  | nil => cases h
  | cons key keys ih =>
    by_cases hv : given.get key = .null
    · rw [readOverrides, hv] at h
      exact ih h
    · rw [readOverrides_cons hv] at h
      rcases bind_eq_error.mp h with h | ⟨n, -, h⟩
      · exact requireAttribute_shows (shows_get hgiven key) h
      · rcases bind_eq_error.mp h with h | ⟨rest, -, ⟨⟩⟩
        exact ih h

/-- What the check does not look at before it computes with it: the steps of a duration have to be
well within the range of floating point numbers. -/
def InRange (given : Entries) (speed : Quantity) (c : Conversion) : Prop :=
  ∀ duration, requireNumber c.source (given.get c.source) = .ok duration → duration.Within speed

theorem closes_conversions {speed : Quantity} {cs : List Conversion}
    (hcs : ∀ c ∈ cs, c ∈ conversions ∧ InRange given speed c) :
    Closes given (fun _ => True) (readConversions given speed cs) := by
  induction cs with
  | nil => exact closes_ok trivial
  | cons c cs ih =>
    obtain ⟨⟨hc, hrange⟩, hcs⟩ := List.forall_mem_cons.mp hcs
    by_cases hv : given.get c.source = .null
    · rw [readConversions, hv]
      exact ih hcs
    · rw [readConversions_cons hv]
      refine (closes_mapError fun hgiven e =>
        requireNumber_shows (shows_get hgiven c.source).1).bind fun duration hd => ?_
      obtain ⟨hpos, hsmall⟩ := divisor_bounds c hc
      obtain ⟨n, hn, hle⟩ := Quantity.stepsFor_within (hrange duration hd) hpos (by omega)
      have hsteps : Closes given (fun n => Number.isWritable n)
          (ofMismatch (stepsFor duration speed (.whole c.divisor))) := by
        rw [hn]
        exact closes_ok (isWritable_of_le (by decide) hle)
      refine hsteps.bind fun steps hsteps => ?_
      by_cases hlarge : maximum < steps
      · rw [if_pos hlarge]
        exact .inl ⟨_, rfl, turnsDown_raised fun hgiven =>
          Bool.and_eq_true_iff.mpr ⟨(shows_get hgiven c.source).1, hsteps⟩⟩
      · rw [if_neg hlarge]
        exact (ih hcs).bind fun rest _ => closes_ok trivial

theorem flag_shows (hgiven : Shown given) {e : OptionError} (h : readFlag given = .error e) :
    e.isShowable := by
  have hflag := shows_get hgiven calibrateKey
  unfold readFlag at h
  split at h <;> cases h
  exact hflag.1

/-! ### The whole check -/

theorem closes_validateNamed
    (hrange : ∀ c ∈ conversions, ∀ speed, Quantity.ofValue? (askedSpeed given) = some speed →
      InRange given speed c) :
    Closes given (fun o => ∃ q, readSpeed given = .ok (o.speed, q))
      (validateNamed given).outcome := by
  rw [validateNamed, Logged.outcome_bind]
  refine (closes_mapError fun hgiven e => speed_shows hgiven).bind fun (shown, speed) hs => ?_
  have hspeed : Quantity.ofValue? (askedSpeed given) = some speed := by
    obtain ⟨rfl, hq⟩ := readSpeed_ok hs
    exact hq
  dsimp only
  rw [Logged.outcome_bind]
  refine (closes_base baseAttributes).bind fun base _ => ?_
  rw [Logged.outcome_bind]
  refine (closes_mapError fun hgiven e => overrides_shows hgiven).bind fun raw _ => ?_
  rw [Logged.outcome_bind]
  refine (closes_conversions fun c hc => ⟨hc, hrange c hc speed hspeed⟩).bind fun made _ => ?_
  rw [Logged.outcome_bind]
  refine (closes_mapError fun hgiven e => flag_shows hgiven).bind fun calibrate _ => ?_
  exact closes_ok ⟨speed, hs⟩

theorem readSpeed_pos {q : Quantity} (h : readSpeed given = .ok (v, q))
    (hnan : askedSpeed given ≠ .float .nan) : (Quantity.whole 0).lt q := by
  obtain ⟨rfl, hq⟩ := readSpeed_ok h
  obtain ⟨p, -, h⟩ := bind_eq_ok.mp h
  split at h
  · cases h
  · next hpos =>
    obtain rfl : p = q := congrArg Prod.snd (Except.ok.inj h)
    refine Quantity.pos_of_isNotPositive (Bool.eq_false_of_not_eq_true hpos) ?_
    rintro rfl
    exact hnan (Quantity.eq_float_of_ofValue? hq)

/-- The check of a request with nothing but a duration. -/
theorem validate_duration {q : Quantity} (h : requireNumber openToClosedKey v = .ok q) :
    (validate (.dict [(openToClosedKey, v)])).outcome = (do
      let steps ← ofMismatch (stepsFor q (.whole defaultSpeed) (.whole 1))
      if maximum < steps then
        .error (Fault.option (.tooManySteps openToClosedKey v steps totalSteps)).raised
      return { overrides := [(totalSteps, .int steps)] }) := by
  have hv : v ≠ .null := by
    rintro rfl
    cases h
  have hget : Entries.get [(openToClosedKey, v)] openToClosedKey ≠ .null := hv
  have hread : readConversions [(openToClosedKey, v)] (.whole defaultSpeed) conversions = (do
      let steps ← ofMismatch (stepsFor q (.whole defaultSpeed) (.whole 1))
      if maximum < steps then
        .error (Fault.option (.tooManySteps openToClosedKey v steps totalSteps)).raised
      return [(totalSteps, .int steps)]) := by
    rw [conversions, readConversions_cons hget]
    change ((requireNumber openToClosedKey v).mapError (fun e => (Fault.option e).raised) >>= _) = _
    rw [h]
    rfl
  rw [validate_of_known (by simp [knownKeys, conversions]), validateNamed, Logged.outcome_bind]
  change (Logged.ofOutcome (readConversions _ (.whole defaultSpeed) conversions) >>= _).outcome = _
  rw [Logged.outcome_bind, Logged.outcome_ofOutcome, hread]
  cases stepsFor q (.whole defaultSpeed) (.whole 1) with
  | error e => rfl
  | ok steps =>
    change ((if maximum < steps then _ else _) >>= _) = (if maximum < steps then _ else _)
    split <;> rfl

/-- Whatever is given, the check ends with an error of its own or with options whose speed is above
zero, unless the speed is no number or the steps of a duration are out of range. An error that would
have to show an integer which is too long to be written is replaced by the failure to write it. -/
theorem validation_closed (hspeed : askedSpeed given ≠ .float .nan)
    (hrange : ∀ c ∈ conversions, ∀ speed, Quantity.ofValue? (askedSpeed given) = some speed →
      InRange given speed c) :
    (∃ e, (validate (.dict given)).outcome = .error (.option e)) ∨
      (∃ o q, (validate (.dict given)).outcome = .ok o ∧ Quantity.ofValue? o.speed = some q ∧
        (Quantity.whole 0).lt q) ∨
      (validate (.dict given)).outcome = .error (.mismatch .unwritable) ∧ ¬ Shown given := by
  rw [validate_named]
  split
  · obtain ⟨_, he, ⟨e, rfl⟩ | ⟨rfl, hhidden⟩⟩ | ⟨o, ho, q, hq⟩ := closes_validateNamed hrange
    · exact .inl ⟨e, he⟩
    · exact .inr (.inr ⟨he, hhidden⟩)
    · exact .inr (.inl ⟨o, q, ho, (readSpeed_ok hq).2, readSpeed_pos hq hspeed⟩)
  · exact .inl ⟨_, rfl⟩

/-- A request for the steps of half a minute. -/
def halfMinute : Entries := [(openToClosedKey, .int 30)]

theorem steps_halfMinute : stepsFor (.whole 30) (.whole defaultSpeed) (.whole 1) = .ok 1500 := by
  have hquotient : Binary64.ratio? 1500 1 = some (.ofNat 1500) := by decide +kernel
  have hsum : ((Binary64.ofNat 1500).add .half).truncate? = some 1500 := by decide +kernel
  refine bind_eq_ok.mpr ⟨.whole 1500, rfl, bind_eq_ok.mpr ⟨.ofNat 1500, ?_, ?_⟩⟩
  · exact Quantity.div_whole (d := 1) (by decide) hquotient
  · exact Value.integerPart_eq_ok.mpr hsum

theorem validation_closed_halfMinute : askedSpeed halfMinute ≠ .float .nan ∧
    (∀ c ∈ conversions, InRange halfMinute (.whole defaultSpeed) c) ∧
    ∃ o q, (validate (.dict halfMinute)).outcome = .ok o ∧ o.overrides = [(totalSteps, .int 1500)] ∧
      Quantity.ofValue? o.speed = some q ∧ (Quantity.whole 0).lt q := by
  have hspeed : askedSpeed halfMinute ≠ .float .nan := nofun
  have hrange : ∀ c ∈ conversions, InRange halfMinute (.whole defaultSpeed) c := by
    intro c hc duration hd
    have hd := requireNumber_ok hd
    simp only [conversions, List.mem_cons, List.not_mem_nil, or_false] at hc
    rcases hc with rfl | rfl | rfl | rfl <;> cases hd
    exact Quantity.within_whole (by decide +kernel) (by decide +kernel) (by decide +kernel)
  have houtcome : (validate (.dict halfMinute)).outcome =
      .ok { overrides := [(totalSteps, .int 1500)] } := by
    rw [halfMinute, validate_duration rfl, steps_halfMinute]
    rfl
  refine ⟨hspeed, hrange, _, .whole defaultSpeed, houtcome, rfl, rfl, ?_⟩
  have hclosed := validation_closed hspeed fun c hc speed hs => by
    cases hs
    exact hrange c hc
  rw [houtcome] at hclosed
  obtain ⟨e, ⟨⟩⟩ | ⟨o, q, ho, hq, hpos⟩ | ⟨⟨⟩, -⟩ := hclosed
  cases ho
  cases hq
  exact hpos

/-- A request for the steps of a duration without end. -/
def endless : Entries := [(openToClosedKey, .float (.infinite false))]

/-- A request with a speed that is no number. -/
def undefinedSpeed : Entries := [(speedKey, .float .nan)]

theorem steps_endless : stepsFor (.real (.infinite false)) (.whole defaultSpeed) (.whole 1) =
    .error .infiniteInteger := by
  have hspeed : Binary64.ofInt? defaultSpeed = some (.ofNat 50) := by decide +kernel
  have hproduct : (Binary64.infinite false).mul (.ofNat 50) = .infinite false := by decide +kernel
  have hquotient : (Binary64.infinite false).div? (.ofNat 1) = some (.infinite false) := by
    decide +kernel
  have hsum : (Binary64.infinite false).add .half = .infinite false := by decide +kernel
  have hmul : (Quantity.real (.infinite false)).mul (.whole defaultSpeed) =
      .ok (.real (.infinite false)) := by
    rcases Quantity.mul_real (p := .real (.infinite false)) rfl (Quantity.toReal_whole.mpr hspeed)
      with h | ⟨n, m, h, -⟩
    · rwa [hproduct] at h
    · cases h
  refine bind_eq_error.mpr (.inr ⟨_, hmul, bind_eq_error.mpr (.inr ⟨.infinite false, ?_, ?_⟩)⟩)
  · exact Quantity.div_real_eq (d := 1) (by decide) hquotient
  · rw [hsum]
    rfl

/-- A number out of range fails before it is compared, and a comparison with what is no number finds
nothing wrong. -/
theorem validation_not_closed :
    (validate (.dict endless)).outcome = .error (.mismatch .infiniteInteger) ∧
    (Fault.mismatch .infiniteInteger).category = .overflow ∧
    (∃ o, (validate (.dict undefinedSpeed)).outcome = .ok o ∧ o.speed = .float .nan) ∧
    (Quantity.whole 0).lt (.real .nan) = false := by
  refine ⟨?_, rfl, ⟨{ speed := .float .nan }, ?_, rfl⟩, ?_⟩
  · have hnumber : requireNumber openToClosedKey (.float (.infinite false)) =
        .ok (.real (.infinite false)) := requireNumber_eq_ok rfl (by decide +kernel)
    rw [endless, validate_duration hnumber, steps_endless]
    rfl
  · have hnumber : requireNumber speedKey (.float .nan) = .ok (.real .nan) :=
      requireNumber_eq_ok rfl (by decide +kernel)
    have hspeed : readSpeed undefinedSpeed = .ok (.float .nan, .real .nan) :=
      bind_eq_ok.mpr ⟨_, hnumber, if_neg (by decide +kernel)⟩
    rw [validate_of_known (by decide)]
    exact Logged.bind_outcome_eq_ok.mpr ⟨_,
      (mapError_eq_ok (f := fun e => (Fault.option e).raised)).mpr hspeed, rfl⟩
  · decide +kernel

/-- A flag that is an integer beyond the limit is refused without being shown. -/
theorem validate_unwritable {k : Nat} (hk : Number.digitLimit ≤ k) :
    (validate (.dict [(calibrateKey, .int (10 ^ k : Nat))])).outcome =
      .error (.mismatch .unwritable) := by
  have hhidden : (Value.int (10 ^ k : Nat)).isShowable = false := Number.not_isWritable_power hk
  generalize ((10 ^ k : Nat) : Int) = n at hhidden ⊢
  let e : OptionError := .noTruthValue calibrateKey (.int n)
  have hraised : (Fault.option e).raised = .mismatch .unwritable :=
    Fault.raised_of_not_isShowable hhidden
  rw [validate_of_known (by simp [knownKeys]), validateNamed]
  exact congrArg Except.error hraised

end Covering

end Commissioning

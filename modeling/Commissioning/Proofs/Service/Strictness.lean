import Commissioning.Proofs.Covering.Coerced
import Commissioning.Proofs.Covering.Writes
import Commissioning.Proofs.Service.Form
import Commissioning.Proofs.Service.Opening
import Commissioning.Proofs.Value.Showable

/-!
The form of a covering is at least as strict as the check of its options. The form reads every number
as a number of one type, and the options are made of what has been read. For a request of numbers none
of whose attributes has a fraction, reading loses nothing: what the check would turn down is turned
down, and what is written is what is given. A fraction is cut off before the check can see it.

    given  total steps 12.0  ──form──▶ 12 ──check──▶ write 12
    given  total steps -1    ──form──▶ turned down
    given  total steps 1.5   ──form──▶ 1  ──check──▶ write 1
-/
namespace Commissioning

namespace Value

/-- An integer or a finite floating point number; truth values are none. -/
def IsNumber : Value → Prop
  | .int _ | .status _ | .float (.finite ..) => True
  | _ => False

/-- A floating point number that is not whole. -/
def HasFraction : Value → Prop
  | .float x => x.isWhole = false
  | _ => False

end Value

namespace Covering
open Attribute

/-- The attributes that a request can give raw. -/
def rawAttributes : List String := baseAttributes ++ overrideAttributes

/-- The options that are numbers. -/
def numericKeys : List String := rawAttributes ++ conversions.map Conversion.source ++ [speedKey]

/-- The options in a request: all but the address. -/
def optionsIn (given : Entries) : Entries := given.filter fun (key, _) => key != Key.address

/-- A request whose numeric options are numbers and whose flag is a truth value. -/
structure Numeric (given : Entries) : Prop where
  numbers : ∀ key ∈ numericKeys, ∀ v, given.get? key = some v → v.IsNumber
  flag : ∀ v, given.get? calibrateKey = some v → ∃ b, v = .bool b

/-- A request that gives no raw attribute a fraction. -/
def WithoutFractions (given : Entries) : Prop :=
  ∀ key ∈ rawAttributes, ∀ v, given.get? key = some v → ¬ v.HasFraction

/-! ### One value -/

theorem requireAttribute_int {key : String} {n : Int} (h0 : 0 ≤ n) (hmax : n ≤ maximum) :
    requireAttribute key (.int n) = .ok (.plain n) := by
  have hwithin : ¬ maximum < n := by omega
  have hsign : decide (n < 0) = false := decide_eq_false (by omega)
  exact bind_eq_ok.mpr ⟨.whole n, requireNumber_eq_ok rfl hsign, if_neg hwithin⟩

theorem requireAttribute_fraction {key : String} {x : Binary64}
    (hsign : (Quantity.real x).isNegative = false) (hx : x.isWhole = false) :
    requireAttribute key (.float x) = .error (.notWhole key (.float x)) := by
  have hnumber : requireNumber key (.float x) = .ok (.real x) := requireNumber_eq_ok rfl hsign
  rw [requireAttribute, hnumber]
  simp only [bind, Except.bind, hx]

/-- A number without a fraction is read as the integer that it is. -/
theorem attributeRead_of_integer {key : String} {v : Value} {n : Int} (hv : v.IsNumber)
    (hwhole : ¬ v.HasFraction) (h : v.toInteger = .ok n) (h0 : 0 ≤ n) (hmax : n ≤ maximum) :
    AttributeRead key v (.int n) := by
  have hwithin : ¬ maximum < n := by omega
  have hsign : decide (n < 0) = false := decide_eq_false (by omega)
  cases v with
  | int k =>
    cases h
    exact ⟨.plain n, requireAttribute_int h0 hmax, ⟨.whole n, rfl, Quantity.same_self n⟩, rfl⟩
  | status k =>
    cases h
    refine ⟨.status n, ?_, ⟨.whole n, rfl, Quantity.same_self n⟩, rfl⟩
    exact bind_eq_ok.mpr ⟨.whole n, requireNumber_eq_ok rfl hsign, if_neg hwithin⟩
  | float x =>
    cases x with
    | finite negative units =>
      have hw : (Binary64.finite negative units).isWhole := by simpa [Value.HasFraction] using hwhole
      have ht : (Binary64.finite negative units).truncate? = some n := Value.integerPart_eq_ok.mp h
      have hunits := Binary64.signed_of_whole hw ht
      refine ⟨.plain n, ?_, ⟨_, rfl, Quantity.same_whole rfl hunits⟩, rfl⟩
      refine bind_eq_ok.mpr ⟨_, requireNumber_eq_ok rfl ?_, ?_⟩
      · exact Binary64.not_lt_zero hunits h0
      · simp only [hw, ht]
        exact if_neg hwithin
    | _ => cases hv
  | _ => cases hv

theorem toReal_ofValue? {v : Value} {q : Quantity} (h : Quantity.ofValue? v = some q) :
    v.toReal = q.toReal := by
  cases v <;> cases h <;> rfl

theorem exists_quantity {v : Value} (hv : v.IsNumber) : ∃ q, Quantity.ofValue? v = some q := by
  cases v with
  | int n => exact ⟨_, rfl⟩
  | status n => exact ⟨_, rfl⟩
  | float x => exact ⟨_, rfl⟩
  | _ => cases hv

theorem isNegative_of_le {q : Quantity} {x : Binary64} (hq : q.toReal = .ok x)
    (hx : (Binary64.ofNat 0).le x) : q.isNegative = false := by
  cases q with
  | whole n =>
    have hn := Binary64.nonneg_of_le (Quantity.toReal_whole.mp hq) hx
    exact decide_eq_false (by omega)
  | real y =>
    cases hq
    exact Binary64.not_lt_of_le hx

theorem isNotPositive_of_lt {q : Quantity} {x : Binary64} (hq : q.toReal = .ok x)
    (hx : (Binary64.ofNat 0).lt x) : q.isNotPositive = false := by
  cases q with
  | whole n =>
    have hn := Binary64.pos_of_lt (Quantity.toReal_whole.mp hq) hx
    exact decide_eq_false (by omega)
  | real y =>
    cases hq
    exact Binary64.not_le_of_lt hx

/-! ### All values -/

section
variable {given entries : Entries}

/-- The default of a key of the form. -/
def defaultFor (key : String) : Option Value :=
  if key = calibrateKey then some (.bool false)
  else if key = speedKey then some (.int defaultSpeed) else none

theorem defaultFor_attribute : ∀ key ∈ rawAttributes, defaultFor key = none := by decide

theorem defaultFor_duration : ∀ c ∈ conversions, defaultFor c.source = none := by decide

theorem covering_default : ∀ x ∈ Form.covering.fields, x.default = defaultFor x.key := by
  simp only [Form.covering, List.forall_mem_append, List.forall_mem_cons, List.forall_mem_map]
  refine ⟨⟨⟨⟨rfl, rfl, rfl, List.forall_mem_nil _⟩, fun key hkey => ?_⟩, fun key hkey => ?_⟩,
    fun c hc => ?_⟩
  · exact (defaultFor_attribute key (List.mem_append_left _ hkey)).symm
  · exact (defaultFor_attribute key (List.mem_append_right _ hkey)).symm
  · exact (defaultFor_duration c hc).symm

/-- Attributes are read as integers of one or two octets. -/
theorem covering_attribute : ∀ key ∈ rawAttributes, ∃ bound : Nat, (bound : Int) ≤ maximum ∧
    Form.covering.field? key = some { key, check := .integer bound } := by
  have hbase : ∀ key ∈ baseAttributes,
      Form.covering.field? key = some { key, check := .integer 255 } := by
    simp only [baseAttributes, List.forall_mem_cons]
    exact ⟨rfl, rfl, rfl, nofun⟩
  have hoverride : ∀ key ∈ overrideAttributes,
      Form.covering.field? key = some { key, check := .integer 65535 } := by
    simp only [overrideAttributes, List.forall_mem_cons]
    exact ⟨rfl, rfl, rfl, rfl, rfl, rfl, rfl, rfl, rfl, rfl, rfl, rfl, nofun⟩
  intro key hkey
  rcases List.mem_append.mp hkey with hkey | hkey
  · exact ⟨255, by decide, hbase key hkey⟩
  · exact ⟨65535, by decide, hoverride key hkey⟩

/-- Durations are read as floating point numbers from zero on. -/
theorem covering_duration : ∀ c ∈ conversions,
    Form.covering.field? c.source = some { key := c.source, check := .real false } := by
  simp only [conversions, List.forall_mem_cons]
  exact ⟨rfl, rfl, rfl, rfl, nofun⟩

theorem address_notMem : ∀ key ∈ knownKeys, key ≠ Key.address := by decide

theorem numericKeys_known : ∀ key ∈ numericKeys, key ∈ knownKeys := by decide

theorem attribute_mem : ∀ key ∈ rawAttributes, key ∈ numericKeys := by decide

theorem duration_mem : ∀ c ∈ conversions, c.source ∈ numericKeys := by decide

theorem speed_mem : speedKey ∈ numericKeys := by decide

theorem covering_keys : ∀ key ∈ Form.covering.fields.map Field.key, key ≠ Key.address →
    key ∈ knownKeys := by
  decide

theorem get?_optionsIn (given : Entries) {key : String} (hkey : key ∈ numericKeys) :
    (optionsIn given).get? key = given.get? key :=
  Entries.get?_leave given (address_notMem key (numericKeys_known key hkey))

/-- What the form of a covering makes of an option. -/
theorem covering_field (h : Form.covering.check (.dict given) = .ok entries) {key : String}
    {x : Field} (hx : Form.covering.field? key = some x) :
    Option.Rel (Form.Makes x.check) ((given.get? key).or (defaultFor key)) (entries.get? key) := by
  have hkey : x.key = key := by simpa using List.find?_some hx
  have hdefault : x.default = defaultFor key := by
    rw [covering_default x (List.mem_of_find?_eq_some hx), hkey]
  rw [← hdefault]
  refine Form.check_field h hx fun y hy hk => ?_
  rw [covering_default y hy, hk, hdefault]

theorem askedSpeed_of_numeric (hn : Numeric given) :
    (given.get? speedKey).or (defaultFor speedKey) = some (askedSpeed given) ∧
      (askedSpeed given).IsNumber := by
  cases hget : given.get? speedKey with
  | none =>
    rw [askedSpeed, Entries.get_of_none hget]
    exact ⟨rfl, trivial⟩
  | some v =>
    have hv := hn.numbers speedKey speed_mem v hget
    have hasked : askedSpeed given = v := by
      rw [askedSpeed, Entries.get_of_some hget]
      split
      · cases hv
      · rfl
    rw [hasked]
    exact ⟨rfl, hv⟩

/-- An option without a default is missing from both, or is what the form makes of what is given. -/
theorem covering_option (h : Form.covering.check (.dict given) = .ok entries) {key : String}
    (hkey : key ∈ numericKeys) (hdefault : defaultFor key = none) {x : Field}
    (hx : Form.covering.field? key = some x) {R : Value → Value → Prop}
    (hR : ∀ v w, (optionsIn given).get? key = some v → Form.Makes x.check v w → R v w) :
    Option.Rel R ((optionsIn given).get? key) ((optionsIn entries).get? key) := by
  have hrel := covering_field h hx
  rw [hdefault, Option.or_none, ← get?_optionsIn given hkey, ← get?_optionsIn entries hkey] at hrel
  rcases rel_cases hrel with ⟨hgiven, hread⟩ | ⟨v, w, hgiven, hread, hmakes⟩
  · rw [hgiven, hread]
    exact .none
  · rw [hgiven, hread]
    exact .some (hR v w hgiven hmakes)

/-- The speed is read as a floating point number, from what is given or from the default. -/
theorem speed_of_check (h : Form.covering.check (.dict given) = .ok entries)
    (hn : Numeric (optionsIn given)) : ∃ q y,
    readSpeed (optionsIn given) = .ok (askedSpeed (optionsIn given), q) ∧ q.toReal = .ok y ∧
      (Binary64.ofNat 0).lt y ∧ (optionsIn entries).get speedKey = .float y := by
  have hx : Form.covering.field? speedKey =
    some { key := speedKey, check := .real true, default := some (.int defaultSpeed) } := rfl
  have hrel := covering_field h hx
  obtain ⟨hasked, hnumber⟩ := askedSpeed_of_numeric hn
  rw [← get?_optionsIn given speed_mem, ← get?_optionsIn entries speed_mem, hasked] at hrel
  rcases rel_cases hrel with ⟨hnone, -⟩ | ⟨v, w, hv, hread, hmakes⟩
  · cases hnone
  · cases hv
    obtain ⟨y, hy, h0, rfl⟩ := Form.makes_real hmakes
    obtain ⟨q, hq⟩ := exists_quantity hnumber
    rw [toReal_ofValue? hq] at hy
    refine ⟨q, y, ?_, hy, h0, Entries.get_of_some hread⟩
    have hpositive := isNotPositive_of_lt hy h0
    have hrequire : requireNumber speedKey (askedSpeed (optionsIn given)) = .ok q :=
      requireNumber_eq_ok hq (isNegative_of_le hy (Binary64.le_of_lt h0))
    exact bind_eq_ok.mpr ⟨q, hrequire, if_neg (by rw [hpositive]; nofun)⟩

theorem readFlag_of_numeric (hn : Numeric given) : ∃ b, readFlag given = .ok b := by
  cases hflag : given.get? calibrateKey with
  | none =>
    refine ⟨false, ?_⟩
    rw [readFlag, Entries.get_of_none hflag]
  | some v =>
    obtain ⟨b, rfl⟩ := hn.flag v hflag
    refine ⟨b, ?_⟩
    rw [readFlag, Entries.get_of_some hflag]

/-- What the form of a covering reads from numbers without fractions. -/
theorem coerced_of_check (h : Form.covering.check (.dict given) = .ok entries)
    (hn : Numeric (optionsIn given)) (hw : WithoutFractions (optionsIn given)) :
    Coerced (optionsIn given) (optionsIn entries) where
  attributes key hkey := by
    have hmem := attribute_mem key hkey
    obtain ⟨bound, hbound, hx⟩ := covering_attribute key hkey
    refine covering_option h hmem (defaultFor_attribute key hkey) hx fun v w hgiven hmakes => ?_
    obtain ⟨n, hint, h0, hmax, rfl⟩ := Form.makes_integer.mp hmakes
    exact attributeRead_of_integer (hn.numbers key hmem v hgiven) (hw key hkey v hgiven) hint h0
      (by omega)
  durations c hc := by
    have hmem := duration_mem c hc
    refine covering_option h hmem (defaultFor_duration c hc) (covering_duration c hc)
      fun v w hgiven hmakes => ?_
    obtain ⟨x, hx, h0, rfl⟩ := Form.makes_real hmakes
    obtain ⟨q, hq⟩ := exists_quantity (hn.numbers c.source hmem v hgiven)
    rw [toReal_ofValue? hq] at hx
    exact ⟨q, x, requireNumber_eq_ok hq (isNegative_of_le hx h0), hx, h0, rfl⟩
  speed := speed_of_check h hn
  flag := readFlag_of_numeric hn

theorem optionsIn_known (h : Form.covering.check (.dict given) = .ok entries) :
    ∀ key ∈ (optionsIn given).map Prod.fst, key ∈ knownKeys := by
  intro key hkey
  obtain ⟨e, he, rfl⟩ := List.mem_map.mp hkey
  obtain ⟨he, hne⟩ := List.mem_filter.mp he
  obtain ⟨x, hx, hxkey⟩ := Form.check_keys h e.1 (List.mem_map_of_mem he)
  refine covering_keys e.1 (hxkey ▸ List.mem_map_of_mem hx) ?_
  simpa using hne

end

/-! ### Requests for total steps alone -/

/-- Data that give a covering nothing but total steps. -/
def stepsData (v : Value) : Entries := [(Key.address, .str sampleText), (totalSteps, v)]

/-- Options of total steps alone. -/
def stepsOptions (n : Int) : Options :=
  { flag := .bool false, speed := Operation.speed, overrides := [(totalSteps, .int n)] }

theorem stepsOptions_isShowable (n : Int) :
    (Value.dict (stepsOptions n).announcement).isShowable = true := by
  have hcount : Number.isWritable 1 = true := rfl
  simp [stepsOptions, Options.announcement, Operation.speed, Value.isShowable,
    Value.areShowableUnder, hcount]

theorem get?_steps {v w : Value} {key : String} (h : (optionsIn (stepsData v)).get? key = some w) :
    key = totalSteps ∧ w = v := by
  have hoptions : optionsIn (stepsData v) = [(totalSteps, v)] := rfl
  rw [hoptions, Entries.get?_cons] at h
  split at h
  · next hk => exact ⟨hk, (Option.some.inj h).symm⟩
  · cases h

theorem numeric_steps {v : Value} (hv : v.IsNumber) : Numeric (optionsIn (stepsData v)) where
  numbers key hkey w h := by
    obtain ⟨-, rfl⟩ := get?_steps h
    exact hv
  flag w h := absurd (get?_steps h).1 (by decide)

theorem withoutFractions_steps {v : Value} (hv : ¬ v.HasFraction) :
    WithoutFractions (optionsIn (stepsData v)) := by
  intro key hkey w h
  obtain ⟨-, rfl⟩ := get?_steps h
  exact hv

/-- Total steps that are no attribute are turned down as such. -/
theorem validate_steps_error {v : Value} {e : OptionError} (hv : v ≠ .null)
    (h : requireAttribute totalSteps v = .error e) (he : e.isShowable) :
    (validate (.dict [(totalSteps, v)])).outcome = .error (.option e) := by
  have hknown : ∀ key ∈ [totalSteps], key ∈ knownKeys := by decide
  have hvalidate : validate (.dict [(totalSteps, v)]) = _ := validate_of_known hknown
  have hspeed : readSpeed [(totalSteps, v)] = .ok (.int defaultSpeed, .whole defaultSpeed) := rfl
  have hget : Entries.get [(totalSteps, v)] totalSteps = v := rfl
  have hraw : readOverrides [(totalSteps, v)] overrideAttributes = .error e := by
    -- the overrides before the total steps are missing
    change readOverrides [(totalSteps, v)] [totalSteps, transitionSteps2, totalSteps2,
      additionalSteps, inactivePowerThreshold, startupSteps] = _
    rw [readOverrides_cons (hget ▸ hv), hget, h]
    rfl
  have hraised : (Fault.option e).raised = .option e := Fault.raised_of_isShowable he
  rw [hvalidate]
  simp only [validateNamed, hspeed, hraw]
  exact congrArg Except.error hraised

/-- Total steps that the form reads as an integer become options with that integer. -/
theorem purpose_steps {v : Value} {n : Int} (h0 : 0 ≤ n) (hn : n ≤ maximum)
    (hv : Form.covering.checkEntry totalSteps v = .ok (.ok (.int n))) : ∃ given,
    Form.covering.check (.dict (stepsData v)) = .ok given ∧ given.get Key.address = .str sampleText ∧
    (validate (.dict (optionsIn given))).outcome = .ok (stepsOptions n) := by
  have hentries : Form.covering.checkEntries [(totalSteps, v)] = .ok (.ok [(totalSteps, .int n)]) :=
    Form.checkEntries_cons.mpr ⟨_, [], hv, rfl, rfl⟩
  have hcheck := Operation.check_covering Operation.realOfInt_defaultSpeed (by decide +kernel)
    sampleText hentries rfl rfl
  have hspeed : readSpeed [(totalSteps, .int n), (calibrateKey, .bool false),
      (speedKey, Operation.speed)] = _ :=
    Operation.readSpeed_real rfl (by decide +kernel) (by decide +kernel)
  have hraw : readOverrides [(totalSteps, .int n), (calibrateKey, .bool false),
      (speedKey, Operation.speed)] overrideAttributes = .ok [(totalSteps, .int n)] :=
    bind_eq_ok.mpr ⟨_, requireAttribute_int h0 hn, rfl⟩
  have hknown : ∀ key ∈ [totalSteps, calibrateKey, speedKey], key ∈ knownKeys := by decide
  exact ⟨_, hcheck, rfl, Operation.validate_overrides hknown rfl hspeed rfl hraw rfl⟩

/-- The form reads a floating point number as total steps by its integer part. -/
theorem checkEntry_steps {x : Binary64} {n : Int} (h0 : 0 ≤ n) (hn : n ≤ maximum)
    (hx : x.truncate? = some n) :
    Form.covering.checkEntry totalSteps (.float x) = .ok (.ok (.int n)) := by
  have hinteger : Value.toInteger (.float x) = .ok n := Value.integerPart_eq_ok.mpr hx
  exact Form.checkEntry_ok.mpr ⟨_, rfl, Form.makes_integer.mpr ⟨n, hinteger, h0, hn, rfl⟩⟩

end Covering

open Covering Attribute

/-- What a job writes by the wish of a request. Each attribute is written as the number that is given
for it, the mode without its calibration bit, and after them the steps that durations convert to; in
order, up to where the run breaks off. -/
def Job.WritesGiven (j : Job) (given : Entries) : Prop :=
  ∃ (o : Options) (base raw : List (String × Int)) (converted : Entries),
    j.purpose = .configureCovering o ∧
    AsGiven given baseAttributes base ∧ AsGiven given overrideAttributes raw ∧
    (∀ e ∈ converted, ∃ c ∈ conversions, c.target = e.1 ∧ converted? given c = some e.2) ∧
    ∀ (verbose : Bool) (now : Nat) (t : List Exchange) (r : Except Stop Entries) (finish : Nat),
      Procedure.Runs (j.purpose.procedure verbose) now t r finish →
      ∃ m rest r' mid, t = m.map Prod.snd ++ rest ∧
        RunsPhases o (Level.ofVerbose verbose) (Phase.all o.calibrate) 0 now m r' mid ∧
        (∀ x ∈ rest, ∃ names manufacturer, x.request = .read .windowCovering names manufacturer) ∧
        requestsOf .base m <+: (base.map baseEntry).map baseWrite ∧
        requestsOf .overrides m <+: (raw.map overrideEntry ++ converted).map overrideWrite

section
variable {given entries : Entries} {o : Options} {j : Job} {h : Hub} {hasGateway : Bool}

/-- A job on a covering is made of options that are made of what the form has read. -/
theorem Service.job_covering
    (hj : (Service.configureCovering.job (.dict given) h hasGateway).outcome = .ok j) :
    ∃ entries o, Form.covering.check (.dict given) = .ok entries ∧
      (validate (.dict (optionsIn entries))).outcome = .ok o ∧ j.purpose = .configureCovering o := by
  obtain ⟨entries, f, d, hentries, -, hf, -, hp, -⟩ := Service.job_eq_ok.mp hj
  obtain ⟨o, ho, hf⟩ := Logged.bind_outcome_eq_ok.mp hf
  cases hf
  exact ⟨entries, o, hentries, ho, (Except.ok.inj hp).symm⟩

theorem Job.writesGiven_of_coerced (hc : Coerced given entries)
    (ho : (validateNamed entries).outcome = .ok o) (hp : j.purpose = .configureCovering o) :
    j.WritesGiven given := by
  obtain ⟨q, raw, made, hspeed, hraw, hmade, hoverrides⟩ := hc.parts ho
  have hof := validateNamed_ok ho
  have hbase := hc.base_eq hof
  have hraw := hc.overrides_eq (fun key hkey => List.mem_append_right _ hkey) hraw
  refine ⟨o, integers entries baseAttributes, integers entries overrideAttributes, made, hp,
    hc.asGiven fun key hkey => List.mem_append_left _ hkey,
    hc.asGiven fun key hkey => List.mem_append_right _ hkey, ?_, ?_⟩
  · intro e he
    rw [(readConversions_ok (readSpeed_ok hspeed).2 hmade).1] at he
    obtain ⟨c, hmem, he⟩ := List.mem_filterMap.mp he
    obtain ⟨v, hv, rfl⟩ := Option.map_eq_some_iff.mp he
    exact ⟨c, hmem, rfl, hv⟩
  · intro verbose now t r finish hr
    rw [hp] at hr
    obtain ⟨m, rest, r', mid, ht, hm, hend⟩ := runs_configure hr
    refine ⟨m, rest, r', mid, ht, hm, ?_, ?_, ?_⟩
    · rcases hend with ⟨mode, rfl, hconclude⟩ | ⟨stop, rfl, rfl, rfl, rfl⟩
      · exact (sends_conclude now).of_runs hconclude
      · simp
    · rw [← hbase]
      exact requestsOf_base hm
    · rw [← hraw, ← hoverrides]
      exact requestsOf_overrides hm

end

namespace Session
variable {s : Session} {i start : Nat} {t : Task} {given : Entries}

/-- A call for a covering whose options are numbers, none of its attributes with a fraction, is turned
down before any device is asked if the check of options turns down what is given; and if it becomes a
job, the job writes what is given. -/
theorem covering_form_strict (ht : s.tasks[i]? = some t) (hstage : t.stage = .waiting start)
    (hservice : t.call.service = .configureCovering) (hdata : t.call.data = .dict given)
    (hn : Numeric (optionsIn given)) (hw : WithoutFractions (optionsIn given)) :
    (∀ e, (validate (.dict (optionsIn given))).outcome = .error e → ∃ e', s.EndsWith i t e') ∧
    ∀ j, (s.jobOf t).outcome = .ok j → j.WritesGiven (optionsIn given) := by
  have hread (j : Job) (hj : (s.jobOf t).outcome = .ok j) : ∃ entries o,
      Coerced (optionsIn given) (optionsIn entries) ∧
      (∀ key ∈ (optionsIn given).map Prod.fst, key ∈ knownKeys) ∧
      (validateNamed (optionsIn entries)).outcome = .ok o ∧ j.purpose = .configureCovering o := by
    unfold jobOf at hj
    rw [hservice, hdata] at hj
    obtain ⟨entries, o, hcheck, ho, hp⟩ := Service.job_covering hj
    obtain ⟨_, ⟨⟩, hnamed⟩ := validate_dict ho
    exact ⟨entries, o, coerced_of_check hcheck hn hw, optionsIn_known hcheck, hnamed, hp⟩
  constructor
  · intro e he
    cases hj : (s.jobOf t).outcome with
    | error e' => exact ⟨e', endsWith_of_error ht ⟨start, hstage⟩ hj⟩
    | ok j =>
      obtain ⟨entries, o, hc, hknown, ho, -⟩ := hread j hj
      obtain ⟨o', ho'⟩ := hc.exists_options ho
      rw [validate_of_known hknown, ho'] at he
      cases he
  · intro j hj
    obtain ⟨entries, o, hc, -, ho, hp⟩ := hread j hj
    exact Job.writesGiven_of_coerced hc ho hp

/-- A call for total steps alone. -/
def stepsTask (v : Value) : Task :=
  .ofCall 0 { service := .configureCovering, data := .dict (stepsData v) }

/-- A session with this call on a slow device. -/
def stepsSession (v : Value) : Session :=
  { opening .calibration sampleAddress [] with tasks := [stepsTask v] }

theorem stepsSession_tasks (v : Value) : (stepsSession v).tasks =
    [{ service := .configureCovering, data := .dict (stepsData v) }].map (Task.ofCall 0) := rfl

theorem stepsSession_reachable (v : Value) : (stepsSession v).Reachable :=
  (opening_reachable .calibration sampleAddress []).call (fun _ h => nomatch h)
    [{ service := .configureCovering, data := .dict (stepsData v) }]

theorem stepsSession_starts {v : Value} {n : Int} (h0 : 0 ≤ n) (hn : n ≤ maximum)
    (hv : Form.covering.checkEntry totalSteps v = .ok (.ok (.int n))) :
    (stepsSession v).Starts 0 (stepsTask v)
      ⟨.configureCovering (stepsOptions n), sampleText, sampleAddress⟩ .calibration
      ⟨Operation.calibration.name, sampleText⟩ := by
  obtain ⟨given, hcheck, haddress, hvalid⟩ := purpose_steps h0 hn hv
  obtain ⟨d, hd, -, -⟩ := (slowHub_slow sampleAddress).device
  refine ⟨rfl, ⟨0, rfl⟩, Service.job_eq_ok.mpr ?_, rfl⟩
  refine ⟨given, _, d, hcheck, ?_, Logged.bind_outcome_eq_ok.mpr ⟨_, hvalid, rfl⟩, ?_, rfl, ?_⟩
  · rw [haddress]
    exact spells_sample.normal
  · exact find_eq_ok.mpr ⟨rfl, sampleAddress, spells_sample.address, hd⟩
  · exact (device?_address hd).symm

/-- A call that the form reads as one for some steps is under way after it has been woken. -/
theorem stepsSession_not_endsWith {v : Value} {n : Int} (h0 : 0 ≤ n) (hn : n ≤ maximum)
    (hv : Form.covering.checkEntry totalSteps v = .ok (.ok (.int n))) :
    ¬ ∃ e, (stepsSession v).EndsWith 0 (stepsTask v) e := by
  rintro ⟨e, hend⟩
  obtain ⟨st, htasks, ⟨j, began, activity, rfl⟩, -⟩ := (stepsSession_reachable v).runs_of_slow
    (stepsSession_starts h0 hn hv) (not_hasHolder_calls (stepsSession_tasks v) _) (proper_of_data rfl _)
    (slowHub_slow sampleAddress) (Operation.covering_opens (stepsOptions_isShowable n))
  rw [hend.tasks] at htasks
  cases htasks

/-- Twelve, as a floating point number. -/
def twelve : Value := .float (.ofNat 12)

/-- Steps below zero are turned down, and steps that are given as a whole floating point number are
written as that number. -/
theorem covering_form_strict_steps :
    (∃ e, (stepsSession (.int (-1))).EndsWith 0 (stepsTask (.int (-1))) e) ∧
    ∃ j, ((stepsSession twelve).jobOf (stepsTask twelve)).outcome = .ok j ∧
      j.WritesGiven (optionsIn (stepsData twelve)) := by
  constructor
  · have hvalid : (validate (.dict (optionsIn (stepsData (.int (-1)))))).outcome =
        .error (.option (.negative totalSteps (.int (-1)))) :=
      validate_steps_error nofun rfl (by decide)
    have hnumeric : Numeric (optionsIn (stepsData (.int (-1)))) := numeric_steps trivial
    exact (covering_form_strict rfl rfl rfl rfl hnumeric (withoutFractions_steps id)).1 _ hvalid
  · have htruncate : (Binary64.ofNat 12).truncate? = some 12 := by decide +kernel
    have hwhole : (Binary64.ofNat 12).isWhole ≠ false := by decide +kernel
    have hstarts := stepsSession_starts (by decide) (by decide)
      (checkEntry_steps (by decide) (by decide) htruncate)
    have hnumeric : Numeric (optionsIn (stepsData twelve)) := numeric_steps trivial
    refine ⟨_, hstarts.job, ?_⟩
    exact (covering_form_strict hstarts.task rfl rfl rfl hnumeric
      (withoutFractions_steps hwhole)).2 _ hstarts.job

/-- One and a half. -/
def oneAndHalf : Binary64 := .finite false (Binary64.one + Binary64.one / 2)

/-- A fraction is cut off before the options are checked: steps that they turn down are written as
another number. -/
theorem fraction_lost :
    let v : Value := .float oneAndHalf
    Numeric (optionsIn (stepsData v)) ∧
    (validate (.dict (optionsIn (stepsData v)))).outcome = .error (.option (.notWhole totalSteps v)) ∧
    (¬ ∃ e, (stepsSession v).EndsWith 0 (stepsTask v) e) ∧
    ∃ j, ((stepsSession v).jobOf (stepsTask v)).outcome = .ok j ∧
      j.purpose = .configureCovering (stepsOptions 1) := by
  intro v
  have htruncate : oneAndHalf.truncate? = some 1 := by decide +kernel
  have hwhole : oneAndHalf.isWhole = false := by decide +kernel
  have hsign : (Quantity.real oneAndHalf).isNegative = false := by decide +kernel
  have hnot : requireAttribute totalSteps v = .error (.notWhole totalSteps v) :=
    requireAttribute_fraction hsign hwhole
  have hread : Form.covering.checkEntry totalSteps v = .ok (.ok (.int 1)) :=
    checkEntry_steps (by decide) (by decide) htruncate
  have hstarts := stepsSession_starts (by decide) (by decide) hread
  exact ⟨numeric_steps trivial, validate_steps_error nofun hnot rfl,
    stepsSession_not_endsWith (by decide) (by decide) hread, _, hstarts.job, rfl⟩

end Session

end Commissioning

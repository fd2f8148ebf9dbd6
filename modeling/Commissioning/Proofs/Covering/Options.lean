import Commissioning.Covering.Options
import Commissioning.Proofs.Covering.Mode
import Commissioning.Proofs.Logged
import Commissioning.Proofs.Number.HalfUp

/-!
What checked options hold, told from the request alone. An attribute stands among the base attributes
or the overrides exactly if the request gives something under its key, and it stands there with the
number that is given; the mode loses its calibration bit on the way.

    request   { mode: 3, total_steps: 10, open_to_closed_s: 2.5 }
    base      [ (mode, 1) ]
    overrides [ (total_steps, 10), (total_steps, 125) ]
-/
namespace Commissioning.Covering
open Attribute

/-- A whole number as an attribute keeps it; a fraction of zero is dropped. -/
def wholeNumber? : Value → Option Value
  | .int n => some (.int n)
  | .status code => some (.status code)
  | .float x => x.truncate?.map .int
  | _ => none

/-- What a request asks for under a key. -/
def asked? (given : Entries) (key : String) : Option Value := wholeNumber? (given.get key)

/-- A mode as checked options hold it. -/
def withoutBit (v : Value) : Value :=
  match v.asIndex? with
  | some n => if hasBit n then .int (clearBit n) else v
  | none => v

/-- What checked options hold for a base attribute. -/
def baseValue? (given : Entries) (key : String) : Option Value :=
  if key = coveringMode then (asked? given key).map withoutBit else asked? given key

/-- The speed that a request tells. -/
def askedSpeed (given : Entries) : Value :=
  match given.get speedKey with
  | .null => .int defaultSpeed
  | v => v

/-- The steps that a request asks for by a duration. -/
def converted? (given : Entries) (c : Conversion) : Option Value := do
  let duration ← Quantity.ofValue? (given.get c.source)
  let speed ← Quantity.ofValue? (askedSpeed given)
  match stepsFor duration speed (.whole c.divisor) with
  | .ok steps => some (.int steps)
  | .error _ => none

/-- Steps that are the exact quotient of a request rounded half up, as long as its duration and its
speed are whole numbers and their product has few digits. -/
def RoundsHalfUp (given : Entries) (c : Conversion) (v : Value) : Prop :=
  ∀ duration speed : Nat, Quantity.ofValue? (given.get c.source) = some (.whole duration) →
    Quantity.ofValue? (askedSpeed given) = some (.whole speed) → duration * speed ≤ 10 ^ 15 →
      v = .int ((2 * duration * speed + c.divisor) / (2 * c.divisor) : Nat)

/-- Options that hold what a request asks for. -/
structure Options.Of (given : Entries) (o : Options) : Prop where
  base : o.base = baseAttributes.filterMap fun key => (baseValue? given key).map (key, ·)
  overrides : o.overrides =
    (overrideAttributes.filterMap fun key => (asked? given key).map (key, ·)) ++
      conversions.filterMap fun c => (converted? given c).map (c.target, ·)
  calibrate : o.calibrate = (given.get calibrateKey).isTruthy
  /-- Nothing that is given is left out. -/
  asked : ∀ key ∈ baseAttributes ++ overrideAttributes,
    given.get key ≠ .null → (asked? given key).isSome
  converted : ∀ c ∈ conversions, given.get c.source ≠ .null → (converted? given c).isSome

/-! ### One value -/

theorem requireNumber_ok {key : String} {v : Value} {q : Quantity}
    (h : requireNumber key v = .ok q) : Quantity.ofValue? v = some q := by
  unfold requireNumber at h
  split at h
  · cases h
  · next hv =>
    split at h
    · cases h
    · cases h
      exact hv

theorem requireNumber_eq_ok {key : String} {v : Value} {q : Quantity}
    (hv : Quantity.ofValue? v = some q) (hq : q.isNegative = false) : requireNumber key v = .ok q := by
  unfold requireNumber
  rw [hv]
  simp only [hq, Bool.false_eq_true, if_false]

theorem eq_of_limited {m n : Numeral} {e : OptionError}
    (h : (if maximum < m.number then .error e else .ok m) = Except.ok n) : m = n := by
  split at h
  · cases h
  · exact Except.ok.inj h

theorem requireAttribute_ok {key : String} {v : Value} {n : Numeral}
    (h : requireAttribute key v = .ok n) : wholeNumber? v = some n.toValue := by
  obtain ⟨q, hq, h⟩ := bind_eq_ok.mp h
  have hv := requireNumber_ok hq
  cases v with
  | int k =>
    cases hv
    rw [← eq_of_limited h]
    rfl
  | status k =>
    cases hv
    rw [← eq_of_limited h]
    rfl
  | float x =>
    cases hv
    simp only at h
    split at h
    · next m _ ht =>
      rw [← eq_of_limited h, wholeNumber?, ht]
      rfl
    · cases h
  | _ => cases hv

theorem withoutBit_toValue (n : Numeral) : withoutBit n.toValue =
    if hasBit n.number then .int (clearBit n.number) else n.toValue := by
  cases n <;> rfl

theorem readSpeed_ok {given : Entries} {v : Value} {q : Quantity}
    (h : readSpeed given = .ok (v, q)) : v = askedSpeed given ∧ Quantity.ofValue? v = some q := by
  obtain ⟨p, hp, h⟩ := bind_eq_ok.mp h
  split at h
  · cases h
  · cases h
    exact ⟨rfl, requireNumber_ok hp⟩

theorem readFlag_ok {given : Entries} {b : Bool} (h : readFlag given = .ok b) :
    b = (given.get calibrateKey).isTruthy := by
  unfold readFlag at h
  split at h <;> cases h <;> simp_all [Value.isTruthy]

theorem asked?_of_null {given : Entries} {key : String} (h : given.get key = .null) :
    asked? given key = none := by
  rw [asked?, h]
  rfl

theorem baseValue?_of_null {given : Entries} {key : String} (h : given.get key = .null) :
    baseValue? given key = none := by
  rw [baseValue?, asked?_of_null h]
  split <;> rfl

theorem baseValue?_of_ok {given : Entries} {key : String} {n : Numeral}
    (h : requireAttribute key (given.get key) = .ok n) :
    baseValue? given key =
      some (if key == coveringMode && hasBit n.number then .int (clearBit n.number)
        else n.toValue) := by
  have ha : asked? given key = some n.toValue := requireAttribute_ok h
  rw [baseValue?, ha]
  by_cases hk : key = coveringMode
  · simp [hk, withoutBit_toValue]
  · simp [hk]

theorem asked?_isSome {given : Entries} {key : String} {n : Numeral}
    (h : requireAttribute key (given.get key) = .ok n) : (asked? given key).isSome := by
  rw [asked?, requireAttribute_ok h]
  rfl

theorem converted?_of_null {given : Entries} {c : Conversion} (h : given.get c.source = .null) :
    converted? given c = none := by
  rw [converted?, h]
  rfl

theorem asIndex?_of_asked {given : Entries} {key : String} {v : Value}
    (h : asked? given key = some v) : ∃ n, v.asIndex? = some n := by
  unfold asked? wholeNumber? at h
  split at h
  · cases h
    exact ⟨_, rfl⟩
  · cases h
    exact ⟨_, rfl⟩
  · obtain ⟨n, -, rfl⟩ := Option.map_eq_some_iff.mp h
    exact ⟨n, rfl⟩
  · cases h

theorem asIndex?_withoutBit {v : Value} {n : Int} (h : v.asIndex? = some n) :
    (withoutBit v).asIndex? = some (clearBit n) := by
  rw [withoutBit, h]
  cases hb : hasBit n with
  | true => simp [hb, Value.asIndex?, Value.asInt?]
  | false => simp [hb, clearBit_of_not_hasBit hb, h]

/-! ### A list of keys -/

theorem readBase_cons_outcome {given : Entries} {key : String} {keys : List String}
    (hv : given.get key ≠ .null) :
    (readBase given (key :: keys)).outcome = (do
      let n ← (requireAttribute key (given.get key)).mapError fun e => (Fault.option e).raised
      let rest ← (readBase given keys).outcome
      return (key, if key == coveringMode && hasBit n.number then .int (clearBit n.number)
        else n.toValue) :: rest) := by
  rw [readBase]
  split
  · contradiction
  · rw [Logged.outcome_bind]
    congr 1
    funext n
    simp only
    split <;> simp only [Logged.outcome_bind] <;> rfl

theorem readBase_ok {given base : Entries} {keys : List String}
    (h : (readBase given keys).outcome = .ok base) :
    base = keys.filterMap (fun key => (baseValue? given key).map (key, ·)) ∧
      ∀ key ∈ keys, given.get key ≠ .null → (asked? given key).isSome := by
  induction keys generalizing base with
  | nil =>
    cases h
    exact ⟨rfl, by simp⟩
  | cons key keys ih =>
    rw [List.filterMap_cons, List.forall_mem_cons]
    by_cases hv : given.get key = .null
    · rw [readBase, hv] at h
      rw [baseValue?_of_null hv]
      exact ⟨(ih h).1, fun hne => absurd hv hne, (ih h).2⟩
    · rw [readBase_cons_outcome hv] at h
      obtain ⟨n, hn, h⟩ := bind_eq_ok.mp h
      obtain ⟨rest, hr, h⟩ := bind_eq_ok.mp h
      have hn := mapError_eq_ok.mp hn
      cases h
      rw [baseValue?_of_ok hn, (ih hr).1]
      exact ⟨rfl, fun _ => asked?_isSome hn, (ih hr).2⟩

theorem readOverrides_ok {given raw : Entries} {keys : List String}
    (h : readOverrides given keys = .ok raw) :
    raw = keys.filterMap (fun key => (asked? given key).map (key, ·)) ∧
      ∀ key ∈ keys, given.get key ≠ .null → (asked? given key).isSome := by
  induction keys generalizing raw with
  | nil =>
    cases h
    exact ⟨rfl, by simp⟩
  | cons key keys ih =>
    rw [List.filterMap_cons, List.forall_mem_cons]
    unfold readOverrides at h
    split at h
    · next hv =>
      rw [asked?_of_null hv]
      exact ⟨(ih h).1, fun hne => absurd hv hne, (ih h).2⟩
    · obtain ⟨n, hn, h⟩ := bind_eq_ok.mp h
      obtain ⟨rest, hr, h⟩ := bind_eq_ok.mp h
      have ha : asked? given key = some n.toValue := requireAttribute_ok hn
      cases h
      rw [ha, (ih hr).1]
      exact ⟨rfl, fun _ => rfl, (ih hr).2⟩

theorem readConversions_ok {given made : Entries} {speed : Quantity} {cs : List Conversion}
    (hs : Quantity.ofValue? (askedSpeed given) = some speed)
    (h : readConversions given speed cs = .ok made) :
    made = cs.filterMap (fun c => (converted? given c).map (c.target, ·)) ∧
      ∀ c ∈ cs, given.get c.source ≠ .null → (converted? given c).isSome := by
  induction cs generalizing made with
  | nil =>
    cases h
    exact ⟨rfl, by simp⟩
  | cons c cs ih =>
    rw [List.filterMap_cons, List.forall_mem_cons]
    unfold readConversions at h
    split at h
    · next hv =>
      rw [converted?_of_null hv]
      exact ⟨(ih h).1, fun hne => absurd hv hne, (ih h).2⟩
    · obtain ⟨duration, hd, h⟩ := bind_eq_ok.mp h
      obtain ⟨steps, hst, h⟩ := bind_eq_ok.mp h
      have hc : converted? given c = some (.int steps) := by
        rw [converted?, requireNumber_ok (mapError_eq_ok.mp hd), hs]
        simp [mapError_eq_ok.mp hst]
      split at h
      · cases h
      · obtain ⟨rest, hr, h⟩ := bind_eq_ok.mp h
        cases h
        rw [hc, (ih hr).1]
        exact ⟨rfl, fun _ => rfl, (ih hr).2⟩

theorem divisor_eq : ∀ c ∈ conversions, c.divisor = 1 ∨ c.divisor = 1000 := by decide

/-- Steps are rounded half up. -/
theorem roundsHalfUp_of_converted {given : Entries} {c : Conversion} {v : Value}
    (hc : c ∈ conversions) (hv : converted? given c = some v) : RoundsHalfUp given c v := by
  intro duration speed hduration hspeed hproduct
  rw [converted?, hduration, hspeed] at hv
  simp only [Option.bind_eq_bind, Option.bind_some,
    Quantity.stepsFor_halfUp (divisor_eq c hc) hproduct] at hv
  exact (Option.some.inj hv).symm

theorem validateNamed_ok {given : Entries} {o : Options}
    (h : (validateNamed given).outcome = .ok o) : o.Of given := by
  obtain ⟨⟨shown, speed⟩, hs, h⟩ := Logged.bind_outcome_eq_ok.mp h
  obtain ⟨base, hb, h⟩ := Logged.bind_outcome_eq_ok.mp h
  obtain ⟨raw, hr, h⟩ := Logged.bind_outcome_eq_ok.mp h
  obtain ⟨made, hm, h⟩ := Logged.bind_outcome_eq_ok.mp h
  obtain ⟨calibrate, hc, h⟩ := Logged.bind_outcome_eq_ok.mp h
  obtain ⟨hshown, hspeed⟩ := readSpeed_ok (mapError_eq_ok.mp hs)
  obtain ⟨hbase, hgb⟩ := readBase_ok hb
  obtain ⟨hraw, hgr⟩ := readOverrides_ok (mapError_eq_ok.mp hr)
  obtain ⟨hmade, hgm⟩ := readConversions_ok (hshown ▸ hspeed) hm
  cases h
  exact {
    base := hbase
    overrides := by rw [hraw, hmade]
    calibrate := readFlag_ok (mapError_eq_ok.mp hc)
    asked := List.forall_mem_append.mpr ⟨hgb, hgr⟩
    converted := hgm }

/-- Only named values with known names are checked further. -/
theorem validate_dict {given : Value} {o : Options} (h : (validate given).outcome = .ok o) :
    ∃ entries, given = .dict entries ∧ (validateNamed entries).outcome = .ok o := by
  obtain ⟨names, -, h⟩ := Logged.bind_outcome_eq_ok.mp h
  cases given with
  | dict entries =>
    simp only at h
    split at h
    · cases h
    · exact ⟨entries, rfl, h⟩
  | _ =>
    simp only at h
    split at h <;> cases h

/-- Checked options hold what the request asks for. -/
theorem validate_ok {given : Value} {o : Options} (h : (validate given).outcome = .ok o) :
    ∃ entries, given = .dict entries ∧ o.Of entries := by
  obtain ⟨entries, rfl, hnamed⟩ := validate_dict h
  exact ⟨entries, rfl, validateNamed_ok hnamed⟩

/-! ### Names that are known -/

theorem namesOf_dict (entries : Entries) :
    namesOf (.dict entries) = .ok (entries.map Prod.fst) := by
  change (entries.map fun e => Value.str e.1).mapM _ = _
  induction entries with
  | nil => rfl
  | cons e entries ih =>
    rw [List.map_cons, List.mapM_cons, ih]
    rfl

theorem unknownNames_eq_nil {names : List String} (h : ∀ key ∈ names, key ∈ knownKeys) :
    unknownNames names = [] := by
  have hfilter : names.filter (fun key => !knownKeys.contains key) = [] := by
    rw [List.filter_eq_nil_iff]
    intro key hk
    simpa using h key hk
  rw [unknownNames, hfilter, List.mergeSort_nil]
  rfl

/-- Named options are checked one after the other if their names are known. -/
theorem validate_named (entries : Entries) : validate (.dict entries) =
    if (unknownNames (entries.map Prod.fst)).isEmpty then validateNamed entries
    else .fail (.option (.unknown (unknownNames (entries.map Prod.fst)))) := by
  have hnames : (.ofOutcome (ofMismatch (namesOf (.dict entries))) : Logged (List String)) =
    pure (entries.map Prod.fst) := by rw [namesOf_dict]; rfl
  unfold validate
  rw [hnames]
  change (if !(unknownNames (entries.map Prod.fst)).isEmpty then _ else validateNamed entries) = _
  cases (unknownNames (entries.map Prod.fst)).isEmpty <;> rfl

theorem validate_of_known {entries : Entries} (h : ∀ key ∈ entries.map Prod.fst, key ∈ knownKeys) :
    validate (.dict entries) = validateNamed entries := by
  rw [validate_named, unknownNames_eq_nil h]
  rfl

/-! ### Which keys there are -/

theorem target_mem : ∀ c ∈ conversions, c.target ∈ overrideAttributes := by decide

namespace Options.Of
variable {given : Entries} {o : Options}

theorem base_keys (h : o.Of given) : ∀ e ∈ o.base, e.1 ∈ baseAttributes := by
  intro e he
  rw [h.base, List.mem_filterMap] at he
  obtain ⟨key, hk, he⟩ := he
  obtain ⟨v, -, rfl⟩ := Option.map_eq_some_iff.mp he
  exact hk

/-- The base attributes hold the mode as a number. -/
theorem base_mode (h : o.Of given) {v : Value} (hv : (coveringMode, v) ∈ o.base) :
    ∃ n, v.asIndex? = some n := by
  rw [h.base, List.mem_filterMap] at hv
  obtain ⟨key, -, hv⟩ := hv
  obtain ⟨w, hw, he⟩ := Option.map_eq_some_iff.mp hv
  cases he
  obtain ⟨u, hu, rfl⟩ := Option.map_eq_some_iff.mp ((if_pos rfl).symm.trans hw)
  obtain ⟨n, hn⟩ := asIndex?_of_asked hu
  exact ⟨_, asIndex?_withoutBit hn⟩

theorem override_keys (h : o.Of given) : ∀ e ∈ o.overrides, e.1 ∈ overrideAttributes := by
  intro e he
  rw [h.overrides, List.mem_append, List.mem_filterMap, List.mem_filterMap] at he
  obtain ⟨key, hk, he⟩ | ⟨c, hc, he⟩ := he
  · obtain ⟨v, -, rfl⟩ := Option.map_eq_some_iff.mp he
    exact hk
  · obtain ⟨v, -, rfl⟩ := Option.map_eq_some_iff.mp he
    exact target_mem c hc

end Options.Of

end Commissioning.Covering

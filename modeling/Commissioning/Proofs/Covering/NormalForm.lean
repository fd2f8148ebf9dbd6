import Commissioning.Proofs.Covering.Steps
import Commissioning.Proofs.Number.Sign

/-!
The normal form of checked options. Their attributes stand in the order of the tables, one for each key
under which something is given, with integers that fit an attribute: the numbers that are given, or the
steps of a duration, which follow the raw overrides and so are the last ones of their attribute.

    request   { open_to_closed_s: 2.5, total_steps: 10.0, mode: 3, startup_steps: null }
    base      [ (mode, 1) ]
    overrides [ (total_steps, 10), (total_steps, 125) ]

The check looks a request up by its keys, so neither their order nor keys with nothing under them count.
-/
namespace Commissioning.Covering
open Attribute

/-- Something is given under a key. -/
def supplied (given : Entries) (key : String) : Bool := !(given.get key).isNull

/-- An integer that an attribute can hold. -/
def Fits (v : Value) : Prop := ∃ n, v.asInt? = some n ∧ 0 ≤ n ∧ n ≤ maximum

/-- Options in the order of the tables that hold what a request gives. -/
structure Normal (given : Entries) (o : Options) : Prop where
  baseKeys : o.base.map Prod.fst = baseAttributes.filter (supplied given)
  base : ∀ e ∈ o.base, ∃ n, (given.get e.1).Denotes n ∧
    e.2.asInt? = some (if e.1 = coveringMode then Int.ldiff n 2 else n)
  overrides : ∃ raw made, o.overrides = raw ++ made ∧
    raw.map Prod.fst = overrideAttributes.filter (supplied given) ∧
    (∀ e ∈ raw, ∃ n, (given.get e.1).Denotes n ∧ e.2.asInt? = some n) ∧
    made.map Prod.fst =
      (conversions.filter fun c => supplied given c.source).map Conversion.target
  fits : ∀ e ∈ o.base ++ o.overrides, Fits e.2
  /-- The last override of an attribute is the converted one if there is one. -/
  last : ∀ c ∈ conversions, supplied given c.source → ∃ v, converted? given c = some v ∧
    RoundsHalfUp given c v ∧ (o.overrides.filter fun e => e.1 == c.target).getLast? = some (c.target, v)

variable {given : Entries} {key : String} {v : Value}

theorem supplied_iff : supplied given key ↔ given.get key ≠ .null := by
  unfold supplied
  cases given.get key <;> simp [Value.isNull]

/-! ### Numbers that are given -/

theorem requireNumber_nonNeg {q : Quantity} (h : requireNumber key v = .ok q) : q.NonNeg := by
  unfold requireNumber at h
  split at h
  · cases h
  · split at h
    · cases h
    · next hsign =>
      cases h
      exact Quantity.nonNeg_of_isNegative (Bool.eq_false_of_not_eq_true hsign)

theorem readSpeed_nonNeg {q : Quantity} (h : readSpeed given = .ok (v, q)) : q.NonNeg := by
  obtain ⟨p, hp, h⟩ := bind_eq_ok.mp h
  split at h
  · cases h
  · cases h
    exact requireNumber_nonNeg hp

theorem le_of_limited {m n : Numeral} {e : OptionError}
    (h : (if maximum < m.number then .error e else .ok m) = Except.ok n) : n.number ≤ maximum := by
  split at h
  · cases h
  · next hmax =>
    cases h
    exact Int.not_lt.mp hmax

/-- A whole number in floating point is the integer that it is read as, and as far from below zero. -/
theorem whole_denotes {x : Binary64} {n : Int} (hw : x.isWhole) (ht : x.truncate? = some n)
    (hx : x.NonNeg) : (Value.float x).Denotes n ∧ 0 ≤ n := by
  cases x with
  | finite s u =>
    refine ⟨⟨.real (.finite s u), rfl, ?_⟩, ?_⟩
    · exact Quantity.same_whole rfl (Binary64.signed_of_whole hw ht)
    · exact hx.integerPart (Value.integerPart_eq_ok.mpr ht)
  | _ => cases ht

/-- An attribute is read as the number that is given, and fits. -/
theorem requireAttribute_denotes {n : Numeral} (h : requireAttribute key v = .ok n) :
    v.Denotes n.number ∧ 0 ≤ n.number ∧ n.number ≤ maximum := by
  obtain ⟨q, hq, h⟩ := bind_eq_ok.mp h
  have hv := requireNumber_ok hq
  have hsign := requireNumber_nonNeg hq
  cases v with
  | int k | status k =>
    cases hv
    have hn := eq_of_limited h
    rw [← hn]
    exact ⟨⟨.whole k, rfl, Quantity.same_self k⟩, hsign, hn ▸ le_of_limited h⟩
  | float x =>
    cases hv
    simp only at h
    split at h
    · next m hw ht =>
      have hn := eq_of_limited h
      obtain ⟨hdenotes, hm⟩ := whole_denotes hw ht hsign
      rw [← hn]
      exact ⟨hdenotes, hm, hn ▸ le_of_limited h⟩
    · cases h
  | _ => cases hv

theorem asInt?_toValue (n : Numeral) : n.toValue.asInt? = some n.number := by cases n <;> rfl

theorem clearBit_range {n : Int} (h : 0 ≤ n) : 0 ≤ clearBit n ∧ clearBit n ≤ n := by
  unfold clearBit
  split
  · next hbit =>
    simp only [hasBit, calibrationBit, beq_iff_eq] at hbit ⊢
    omega
  · exact ⟨h, Int.le_refl n⟩

/-! ### Entries of accepted requests -/

namespace Accepted

/-- A base attribute holds the number that is given, without the calibration bit. -/
theorem base_entry (h : Accepted given) (hkey : key ∈ baseAttributes)
    (hgiven : given.get key ≠ .null) : ∃ v, baseValue? given key = some v ∧
      (∃ n, (given.get key).Denotes n ∧
        v.asInt? = some (if key = coveringMode then Int.ldiff n 2 else n)) ∧ Fits v := by
  obtain ⟨n, hn⟩ := h.attributes key (List.mem_append_left _ hkey) hgiven
  obtain ⟨hdenotes, hn0, hmax⟩ := requireAttribute_denotes hn
  have hvalue : (if key == coveringMode && hasBit n.number then Value.int (clearBit n.number)
      else n.toValue).asInt? = some (if key = coveringMode then Int.ldiff n.number 2 else n.number) := by
    rw [← clearBit_eq_ldiff]
    by_cases hmode : key = coveringMode
    · subst hmode
      cases hbit : hasBit n.number with
      | true => simp [Value.asInt?]
      | false => simp [asInt?_toValue, clearBit_of_not_hasBit hbit]
    · simp [hmode, asInt?_toValue]
  refine ⟨_, baseValue?_of_ok hn, ⟨n.number, hdenotes, hvalue⟩, _, hvalue, ?_⟩
  obtain ⟨hlow, hhigh⟩ := clearBit_range hn0
  rw [← clearBit_eq_ldiff]
  split
  · exact ⟨hlow, Int.le_trans hhigh hmax⟩
  · exact ⟨hn0, hmax⟩

/-- A raw override holds the number that is given. -/
theorem raw_entry (h : Accepted given) (hkey : key ∈ overrideAttributes)
    (hgiven : given.get key ≠ .null) : ∃ v, asked? given key = some v ∧
      (∃ n, (given.get key).Denotes n ∧ v.asInt? = some n) ∧ Fits v := by
  obtain ⟨n, hn⟩ := h.attributes key (List.mem_append_right _ hkey) hgiven
  obtain ⟨hdenotes, hn0, hmax⟩ := requireAttribute_denotes hn
  have hvalue := asInt?_toValue n
  exact ⟨_, requireAttribute_ok hn, ⟨n.number, hdenotes, hvalue⟩, _, hvalue, hn0, hmax⟩

/-- A converted override holds steps that fit. -/
theorem made_entry (h : Accepted given) {c : Conversion} (hc : c ∈ conversions)
    (hgiven : given.get c.source ≠ .null) : ∃ v, converted? given c = some v ∧ Fits v := by
  obtain ⟨duration, speed, steps, hduration, hspeed, hsteps, hmax⟩ := h.durations c hc hgiven
  obtain ⟨⟨shown, speed'⟩, hread⟩ := h.speed
  obtain ⟨rfl, hspeed'⟩ := readSpeed_ok hread
  cases hspeed.symm.trans hspeed'
  obtain ⟨hd, hd'⟩ := divisor_bounds c hc
  have hnonneg := Quantity.stepsFor_nonneg (requireNumber_nonNeg hduration) (readSpeed_nonNeg hread)
    hd (Nat.lt_of_le_of_lt hd' (by decide)) hsteps
  refine ⟨.int steps, ?_, steps, rfl, hnonneg, hmax⟩
  rw [converted?, requireNumber_ok hduration, hspeed]
  simp [hsteps]

end Accepted

/-! ### All entries -/

/-- A table of keys makes options of what is given under the keys that it looks at: one entry for each
of them. -/
theorem table_entries {α : Type} {k s : α → String} {f : α → Option Value} {items : List α}
    {P : String × Value → Prop} (hnone : ∀ a ∈ items, given.get (s a) = .null → f a = none)
    (hsome : ∀ a ∈ items, given.get (s a) ≠ .null → ∃ v, f a = some v ∧ P (k a, v)) :
    (items.filterMap fun a => (f a).map (k a, ·)).map Prod.fst =
        (items.filter fun a => supplied given (s a)).map k ∧
      ∀ e ∈ items.filterMap fun a => (f a).map (k a, ·), P e := by
  constructor
  · rw [Entries.map_key_filterMap]
    refine congrArg (List.map k) (List.filter_congr fun a ha => ?_)
    by_cases hgiven : given.get (s a) = .null
    · have hno : supplied given (s a) = false :=
        Bool.eq_false_of_not_eq_true fun h => supplied_iff.mp h hgiven
      rw [hnone a ha hgiven, hno]
      rfl
    · obtain ⟨v, hv, -⟩ := hsome a ha hgiven
      rw [hv, supplied_iff.mpr hgiven]
      rfl
  · intro e he
    obtain ⟨a, ha, hmap⟩ := List.mem_filterMap.mp he
    obtain ⟨v, hv, rfl⟩ := Option.map_eq_some_iff.mp hmap
    have hgiven : given.get (s a) ≠ .null := by
      intro hnull
      cases (hnone a ha hnull).symm.trans hv
    obtain ⟨w, hw, hP⟩ := hsome a ha hgiven
    cases hv.symm.trans hw
    exact hP

theorem targets_nodup : (conversions.map Conversion.target).Nodup := by decide

/-- Options made of an accepted request have the normal form. -/
theorem Accepted.normal {o : Options} (h : Accepted given) (ho : o.Of given) : Normal given o := by
  obtain ⟨hbaseKeys, hbase⟩ := table_entries (k := id) (s := id)
    (P := fun e => (∃ n, (given.get e.1).Denotes n ∧
      e.2.asInt? = some (if e.1 = coveringMode then Int.ldiff n 2 else n)) ∧ Fits e.2)
    (fun key _ => baseValue?_of_null) fun key hkey => h.base_entry hkey
  obtain ⟨hrawKeys, hraw⟩ := table_entries (k := id) (s := id)
    (P := fun e => (∃ n, (given.get e.1).Denotes n ∧ e.2.asInt? = some n) ∧ Fits e.2)
    (fun key _ => asked?_of_null) fun key hkey => h.raw_entry hkey
  obtain ⟨hmadeKeys, hmade⟩ := table_entries (k := Conversion.target) (s := Conversion.source)
    (P := fun e => Fits e.2) (fun c _ => converted?_of_null) fun c hc => h.made_entry hc
  rw [List.map_id] at hbaseKeys hrawKeys
  constructor
  case baseKeys => exact ho.base ▸ hbaseKeys
  case base => exact fun e he => (hbase e (ho.base ▸ he)).1
  case overrides =>
    exact ⟨_, _, ho.overrides, hrawKeys, fun e he => (hraw e he).1, hmadeKeys⟩
  case fits =>
    rw [ho.base, ho.overrides]
    refine List.forall_mem_append.mpr ⟨fun e he => (hbase e he).2, ?_⟩
    exact List.forall_mem_append.mpr ⟨fun e he => (hraw e he).2, hmade⟩
  case last =>
    intro c hc hgiven
    obtain ⟨v, hv, -⟩ := h.made_entry hc (supplied_iff.mp hgiven)
    refine ⟨v, hv, roundsHalfUp_of_converted hc hv, ?_⟩
    -- the only converted override of this attribute comes after the raw ones
    rw [ho.overrides, List.filter_append,
      Entries.filter_filterMap Conversion.target (converted? given) targets_nodup hc hv,
      List.getLast?_concat]

/-! ### Order of keys, and keys with nothing under them -/

/-- The check does not depend on the order of keys. -/
theorem validate_perm {given' : Entries} (hkeys : (given.map Prod.fst).Nodup)
    (h : given.Perm given') : validate (.dict given') = validate (.dict given) := by
  rw [validate_named, validate_named, ← unknownNames_perm (h.map Prod.fst),
    validateNamed_congr fun key _ => ?_]
  rw [Entries.get, Entries.get, Entries.get?_perm h hkeys]

theorem unknownNames_filter {keep : String × Value → Bool}
    (h : ∀ e ∈ given, keep e = false → e.1 ∈ knownKeys) :
    unknownNames ((given.filter keep).map Prod.fst) = unknownNames (given.map Prod.fst) := by
  have hfilter : ((given.filter keep).map Prod.fst).filter (fun key => !knownKeys.contains key) =
      (given.map Prod.fst).filter fun key => !knownKeys.contains key := by
    rw [List.filter_map, List.filter_map, List.filter_filter]
    congr 1
    refine List.filter_congr fun e he => ?_
    cases hkeep : keep e with
    | true => simp
    | false => simp [h e he hkeep]
  rw [unknownNames, unknownNames, hfilter]

/-- The check does not depend on known keys with nothing under them. -/
theorem validate_filter {keep : String × Value → Bool} (hkeys : (given.map Prod.fst).Nodup)
    (h : ∀ e ∈ given, keep e = false → e.1 ∈ knownKeys ∧ e.2 = .null) :
    validate (.dict (given.filter keep)) = validate (.dict given) := by
  rw [validate_named, validate_named, unknownNames_filter fun e he hkeep => (h e he hkeep).1,
    validateNamed_congr fun key _ =>
      Entries.get_filter_null hkeys (fun e he hkeep => (h e he hkeep).2) key]

/-- Options that the check gives have the normal form, whatever the order of the keys of the request
and whether or not it has keys with nothing under them. -/
theorem validated_normal_form (given : Entries) (hkeys : (given.map Prod.fst).Nodup) :
    (∀ o, (validate (.dict given)).outcome = .ok o → Normal given o) ∧
    (∀ given', given.Perm given' → validate (.dict given') = validate (.dict given)) ∧
    ∀ keep : String × Value → Bool,
      (∀ e ∈ given, keep e = false → e.1 ∈ knownKeys ∧ e.2 = .null) →
        validate (.dict (given.filter keep)) = validate (.dict given) := by
  refine ⟨fun o ho => ?_, fun given' => validate_perm hkeys, fun keep => validate_filter hkeys⟩
  obtain ⟨_, ⟨⟩, hof⟩ := validate_ok ho
  exact (accepted_of_validate ho).normal hof

/-- A duration, the number of steps that it goes over, a mode and nothing. -/
def mixedOptions : Entries := [(openToClosedKey, .int 30), (totalSteps, .int 10),
  (coveringMode, .int 3), (startupSteps, .null)]

theorem mixedOptions_accepted : Accepted mixedOptions where
  names := by decide
  speed := ⟨(.int defaultSpeed, .whole defaultSpeed), rfl⟩
  attributes := by
    have hbase : (readBase mixedOptions baseAttributes).outcome = .ok [(coveringMode, .int 1)] := rfl
    have hraw : readOverrides mixedOptions overrideAttributes = .ok [(totalSteps, .int 10)] := rfl
    exact List.forall_mem_append.mpr
      ⟨attribute_of_readBase hbase, attribute_of_readOverrides hraw⟩
  durations := by
    have hsteps : stepsFor (.whole 30) (.whole 50) (.whole 1) = .ok 1500 :=
      Quantity.stepsFor_whole (v := 30) (s := 50) (d := 1) (k := 50) (by decide) (by decide)
        (by decide)
    refine List.forall_iff_forall_mem.mp ⟨fun _ => ?_, fun h => absurd rfl h, fun h => absurd rfl h,
      fun h => absurd rfl h⟩
    exact ⟨.whole 30, .whole 50, 1500, rfl, rfl, hsteps, by decide⟩
  flag := ⟨false, rfl⟩

theorem validated_normal_form_mixed : (mixedOptions.map Prod.fst).Nodup ∧
    (∃ o, (validate (.dict mixedOptions)).outcome = .ok o ∧ Normal mixedOptions o ∧
      o.base = [(coveringMode, .int 1)]) ∧
    validate (.dict mixedOptions.reverse) = validate (.dict mixedOptions) ∧
    validate (.dict (mixedOptions.filter fun e => !e.2.isNull)) = validate (.dict mixedOptions) := by
  have hkeys : (mixedOptions.map Prod.fst).Nodup := by decide
  have hnull : ∀ e ∈ mixedOptions, (!e.2.isNull) = false → e.1 ∈ knownKeys ∧ e.2 = .null := by
    intro e he hkeep
    simp only [mixedOptions, List.mem_cons, List.not_mem_nil, or_false] at he
    rcases he with rfl | rfl | rfl | rfl
    · cases hkeep
    · cases hkeep
    · cases hkeep
    · exact ⟨by decide, rfl⟩
  obtain ⟨hnormal, hperm, hfilter⟩ := validated_normal_form mixedOptions hkeys
  obtain ⟨o, ho⟩ := mixedOptions_accepted.validates
  obtain ⟨_, ⟨⟩, hof⟩ := validate_ok ho
  exact ⟨hkeys, ⟨o, ho, hnormal o ho, hof.base⟩, hperm _ (List.reverse_perm _).symm, hfilter _ hnull⟩

end Commissioning.Covering

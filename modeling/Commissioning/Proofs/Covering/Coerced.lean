import Commissioning.Proofs.Covering.FinalState
import Commissioning.Proofs.Number.Rounding

/-!
Requests whose numbers have been read as numbers of another type. Attributes are read as integers and
durations as floating point numbers. As long as no attribute loses a fraction on the way, options that
can be made of what has been read can be made of the request itself, and hold the same numbers.

    given    { mode: 3.0, total_steps: 10, open_to_closed_s: 30 }
    read     { mode: 3,   total_steps: 10, open_to_closed_s: 30.0, steps_per_second: 50.0 }
    options  base [ (mode, 1) ], overrides [ (total_steps, 10), (total_steps, 1500) ]
-/
namespace Commissioning

/-- The same number as an integer, whatever its type. -/
def Value.Denotes (v : Value) (n : Int) : Prop :=
  ∃ q, Quantity.ofValue? v = some q ∧ q.same (.whole n)

namespace Covering
open Attribute

/-- An attribute that has been read as the integer that it is. -/
def AttributeRead (key : String) (v w : Value) : Prop :=
  ∃ m : Numeral, requireAttribute key v = .ok m ∧ v.Denotes m.number ∧ w = .int m.number

/-- A duration that has been read as a floating point number. -/
def DurationRead (key : String) (v w : Value) : Prop :=
  ∃ p x, requireNumber key v = .ok p ∧ p.toReal = .ok x ∧ (Binary64.ofNat 0).le x ∧ w = .float x

/-- What has been read from a request, field by field. -/
structure Coerced (given read : Entries) : Prop where
  attributes : ∀ key ∈ baseAttributes ++ overrideAttributes,
    Option.Rel (AttributeRead key) (given.get? key) (read.get? key)
  durations : ∀ c ∈ conversions,
    Option.Rel (DurationRead c.source) (given.get? c.source) (read.get? c.source)
  speed : ∃ q y, readSpeed given = .ok (askedSpeed given, q) ∧ q.toReal = .ok y ∧
    (Binary64.ofNat 0).lt y ∧ read.get speedKey = .float y
  flag : ∃ b, readFlag given = .ok b

variable {given read : Entries} {o : Options}

/-! ### Readings that succeed -/

theorem readOverrides_cons {key : String} {keys : List String} (hv : given.get key ≠ .null) :
    readOverrides given (key :: keys) = (do
      let n ← requireAttribute key (given.get key)
      return (key, n.toValue) :: (← readOverrides given keys)) := by
  rw [readOverrides]
  split
  · contradiction
  · rfl

theorem readConversions_cons {speed : Quantity} {c : Conversion} {cs : List Conversion}
    (hv : given.get c.source ≠ .null) :
    readConversions given speed (c :: cs) = (do
      let duration ← (requireNumber c.source (given.get c.source)).mapError
        fun e => (Fault.option e).raised
      let steps ← ofMismatch (stepsFor duration speed (.whole c.divisor))
      if maximum < steps then
        .error (Fault.option (.tooManySteps c.source (given.get c.source) steps c.target)).raised
      return (c.target, .int steps) :: (← readConversions given speed cs)) := by
  rw [readConversions]
  split
  · contradiction
  · rfl

theorem exists_readBase {keys : List String}
    (h : ∀ key ∈ keys, given.get key ≠ .null → ∃ n, requireAttribute key (given.get key) = .ok n) :
    ∃ base, (readBase given keys).outcome = .ok base := by
  induction keys with
  | nil => exact ⟨[], rfl⟩
  | cons key keys ih =>
    obtain ⟨hkey, hkeys⟩ := List.forall_mem_cons.mp h
    obtain ⟨base, hb⟩ := ih hkeys
    by_cases hv : given.get key = .null
    · refine ⟨base, ?_⟩
      rw [readBase, hv]
      exact hb
    · obtain ⟨n, hn⟩ := hkey hv
      rw [readBase_cons_outcome hv]
      exact ⟨_, bind_eq_ok.mpr ⟨n, mapError_eq_ok.mpr hn, bind_eq_ok.mpr ⟨base, hb, rfl⟩⟩⟩

theorem exists_readOverrides {keys : List String}
    (h : ∀ key ∈ keys, given.get key ≠ .null → ∃ n, requireAttribute key (given.get key) = .ok n) :
    ∃ raw, readOverrides given keys = .ok raw := by
  induction keys with
  | nil => exact ⟨[], rfl⟩
  | cons key keys ih =>
    obtain ⟨hkey, hkeys⟩ := List.forall_mem_cons.mp h
    obtain ⟨raw, hr⟩ := ih hkeys
    by_cases hv : given.get key = .null
    · refine ⟨raw, ?_⟩
      rw [readOverrides, hv]
      exact hr
    · obtain ⟨n, hn⟩ := hkey hv
      rw [readOverrides_cons hv]
      exact ⟨_, bind_eq_ok.mpr ⟨n, hn, bind_eq_ok.mpr ⟨raw, hr, rfl⟩⟩⟩

theorem rel_cases {R : Value → Value → Prop} {a b : Option Value} (h : Option.Rel R a b) :
    a = none ∧ b = none ∨ ∃ v w, a = some v ∧ b = some w ∧ R v w := by
  cases h with
  | none => exact .inl ⟨rfl, rfl⟩
  | some hR => exact .inr ⟨_, _, rfl, rfl, hR⟩

theorem divisor_bounds : ∀ c ∈ conversions, 0 < c.divisor ∧ c.divisor ≤ 2 ^ 10 := by decide

namespace Coerced

theorem attribute_ok (h : Coerced given read) {key : String}
    (hkey : key ∈ baseAttributes ++ overrideAttributes) (hv : given.get key ≠ .null) :
    ∃ n, requireAttribute key (given.get key) = .ok n := by
  rcases rel_cases (h.attributes key hkey) with ⟨hnone, -⟩ | ⟨v, w, hget, -, m, hm, -⟩
  · exact absurd (Entries.get_of_none hnone) hv
  · rw [Entries.get_of_some hget]
    exact ⟨m, hm⟩

/-- A duration converts to the same steps as what has been read from it. -/
theorem conversions_ok (h : Coerced given read) {q : Quantity} {y : Binary64}
    (hq : q.toReal = .ok y) (hy : (Binary64.ofNat 0).lt y) {cs : List Conversion}
    (hcs : ∀ c ∈ cs, c ∈ conversions) {made : Entries}
    (hmade : readConversions read (.real y) cs = .ok made) :
    readConversions given q cs = .ok made := by
  induction cs generalizing made with
  | nil => exact hmade
  | cons c cs ih =>
    obtain ⟨hc, hcs⟩ := List.forall_mem_cons.mp hcs
    obtain ⟨hd, hd'⟩ := divisor_bounds c hc
    rcases rel_cases (h.durations c hc) with
      ⟨hnone, hnone'⟩ | ⟨v, w, hget, hget', p, x, hp, hx, hx0, rfl⟩
    · rw [readConversions, Entries.get_of_none hnone'] at hmade
      rw [readConversions, Entries.get_of_none hnone]
      exact ih hcs hmade
    · have hgiven := Entries.get_of_some hget
      have hread := Entries.get_of_some hget'
      have hne : given.get c.source ≠ .null := by
        rw [hgiven]
        rintro rfl
        cases hp
      have hne' : read.get c.source ≠ .null := by simp [hread]
      rw [readConversions_cons hne'] at hmade
      obtain ⟨p', hp', hmade⟩ := bind_eq_ok.mp hmade
      obtain rfl : p' = .real x := by
        have hnumber := requireNumber_ok (mapError_eq_ok.mp hp')
        rw [hread] at hnumber
        exact (Option.some.inj hnumber).symm
      obtain ⟨steps, hsteps, hmade⟩ := bind_eq_ok.mp hmade
      dsimp only at hmade
      split at hmade
      · cases hmade
      · next hmax =>
        obtain ⟨rest, hrest, hmade⟩ := bind_eq_ok.mp hmade
        cases hmade
        have hsmall : steps < 2 ^ 42 := by
          unfold maximum at hmax
          omega
        have hsame := Quantity.stepsFor_toReal hx hq hx0 hy hd hd' (mapError_eq_ok.mp hsteps) hsmall
        rw [readConversions_cons hne, hgiven]
        refine bind_eq_ok.mpr ⟨p, mapError_eq_ok.mpr hp, bind_eq_ok.mpr ⟨steps, ?_, ?_⟩⟩
        · exact mapError_eq_ok.mpr hsame
        · rw [if_neg hmax]
          exact bind_eq_ok.mpr ⟨rest, ih hcs hrest, rfl⟩

/-- What options that can be made of what has been read are made of. -/
theorem parts (h : Coerced given read) (ho : (validateNamed read).outcome = .ok o) :
    ∃ q raw made, readSpeed given = .ok (askedSpeed given, q) ∧
      readOverrides read overrideAttributes = .ok raw ∧
      readConversions given q conversions = .ok made ∧ o.overrides = raw ++ made := by
  obtain ⟨q, y, hspeed, hq, hy, hread⟩ := h.speed
  obtain ⟨⟨shown, speed⟩, hs, ho⟩ := Logged.bind_outcome_eq_ok.mp ho
  obtain rfl : speed = .real y := by
    obtain ⟨rfl, hnumber⟩ := readSpeed_ok (mapError_eq_ok.mp hs)
    rw [askedSpeed, hread] at hnumber
    exact (Option.some.inj hnumber).symm
  obtain ⟨base, -, ho⟩ := Logged.bind_outcome_eq_ok.mp ho
  obtain ⟨raw, hr, ho⟩ := Logged.bind_outcome_eq_ok.mp ho
  obtain ⟨made, hm, ho⟩ := Logged.bind_outcome_eq_ok.mp ho
  obtain ⟨calibrate, -, ho⟩ := Logged.bind_outcome_eq_ok.mp ho
  cases ho
  exact ⟨q, raw, made, hspeed, mapError_eq_ok.mp hr,
    h.conversions_ok hq hy (fun _ hc => hc) hm, rfl⟩

/-- Options that can be made of what has been read can be made of the request. -/
theorem exists_options (h : Coerced given read) (ho : (validateNamed read).outcome = .ok o) :
    ∃ o', (validateNamed given).outcome = .ok o' := by
  obtain ⟨q, raw, made, hspeed, -, hmade, -⟩ := h.parts ho
  obtain ⟨base, hbase⟩ := exists_readBase fun key hkey =>
    h.attribute_ok (List.mem_append_left overrideAttributes hkey)
  obtain ⟨raw, hraw⟩ := exists_readOverrides fun key hkey =>
    h.attribute_ok (List.mem_append_right baseAttributes hkey)
  obtain ⟨calibrate, hflag⟩ := h.flag
  refine ⟨{ flag := .bool calibrate, speed := askedSpeed given, base, overrides := raw ++ made }, ?_⟩
  refine Logged.bind_outcome_eq_ok.mpr ⟨_, mapError_eq_ok.mpr hspeed, ?_⟩
  refine Logged.bind_outcome_eq_ok.mpr ⟨base, hbase, ?_⟩
  refine Logged.bind_outcome_eq_ok.mpr ⟨raw, mapError_eq_ok.mpr hraw, ?_⟩
  refine Logged.bind_outcome_eq_ok.mpr ⟨made, hmade, ?_⟩
  exact Logged.bind_outcome_eq_ok.mpr ⟨calibrate, mapError_eq_ok.mpr hflag, rfl⟩

end Coerced

/-! ### Numbers as they are given -/

/-- Numbers for attributes: for each key under which something is given, the number that is given. -/
structure AsGiven (given : Entries) (keys : List String) (numbers : List (String × Int)) : Prop where
  keys : numbers.map Prod.fst = keys.filter fun key => (given.get? key).isSome
  numbers : ∀ e ∈ numbers, ∃ v, given.get? e.1 = some v ∧ v.Denotes e.2

/-- The integers under some keys. -/
def integers (read : Entries) (keys : List String) : List (String × Int) :=
  keys.filterMap fun key => ((read.get? key).bind Value.asInt?).map (key, ·)

/-- A base attribute as it is written for a number. -/
def baseEntry (e : String × Int) : String × Value :=
  (e.1, .int (if e.1 = coveringMode then clearBit e.2 else e.2))

/-- An override as it is written for a number. -/
def overrideEntry (e : String × Int) : String × Value := (e.1, .int e.2)

namespace Coerced
variable {keys : List String}

theorem integer (h : Coerced given read) {key : String}
    (hkey : key ∈ baseAttributes ++ overrideAttributes) :
    given.get? key = none ∧ read.get? key = none ∨
      ∃ v n, given.get? key = some v ∧ read.get? key = some (.int n) ∧ v.Denotes n := by
  rcases rel_cases (h.attributes key hkey) with hnone | ⟨v, w, hget, hget', m, -, hm, rfl⟩
  · exact .inl hnone
  · exact .inr ⟨v, m.number, hget, hget', hm⟩

theorem asGiven (h : Coerced given read)
    (hkeys : ∀ key ∈ keys, key ∈ baseAttributes ++ overrideAttributes) :
    AsGiven given keys (integers read keys) := by
  constructor
  · rw [integers, Entries.map_fst_filterMap]
    refine List.filter_congr fun key hkey => ?_
    rcases h.integer (hkeys key hkey) with ⟨hgiven, hread⟩ | ⟨v, n, hgiven, hread, -⟩ <;>
      rw [hgiven, hread] <;> rfl
  · intro e he
    obtain ⟨key, hkey, he⟩ := List.mem_filterMap.mp he
    obtain ⟨n, hn, rfl⟩ := Option.map_eq_some_iff.mp he
    rcases h.integer (hkeys key hkey) with ⟨-, hread⟩ | ⟨v, m, hgiven, hread, hm⟩
    · rw [hread] at hn
      cases hn
    · rw [hread] at hn
      cases hn
      exact ⟨v, hgiven, hm⟩

theorem asked?_eq (h : Coerced given read) {key : String}
    (hkey : key ∈ baseAttributes ++ overrideAttributes) :
    asked? read key = ((read.get? key).bind Value.asInt?).map .int := by
  rcases h.integer hkey with ⟨-, hread⟩ | ⟨v, n, -, hread, -⟩
  · rw [asked?, Entries.get_of_none hread, hread]
    rfl
  · rw [asked?, Entries.get_of_some hread, hread]
    rfl

/-- Overrides that can be made of what has been read hold its integers. -/
theorem overrides_eq (h : Coerced given read) {raw : Entries}
    (hkeys : ∀ key ∈ keys, key ∈ baseAttributes ++ overrideAttributes)
    (hraw : readOverrides read keys = .ok raw) :
    raw = (integers read keys).map overrideEntry := by
  rw [(readOverrides_ok hraw).1, integers, List.map_filterMap]
  refine List.filterMap_congr fun key hkey => ?_
  rw [h.asked?_eq (hkeys key hkey), Option.map_map, Option.map_map]
  rfl

/-- So do base attributes, but for the calibration bit of the mode. -/
theorem base_eq (h : Coerced given read) (ho : o.Of read) :
    o.base.map asWritten = (integers read baseAttributes).map baseEntry := by
  rw [base_asWritten ho, integers, List.map_filterMap]
  refine List.filterMap_congr fun key hkey => ?_
  have hasked := h.asked?_eq (List.mem_append_left overrideAttributes hkey)
  rw [writtenBase?, Option.map_map]
  by_cases hk : key = coveringMode
  · subst hk
    rw [if_pos rfl, hasked]
    cases (read.get? coveringMode).bind Value.asInt? with
    | none => rfl
    | some n => simp [baseEntry, Value.asIndex?, Value.asInt?]
  · rw [if_neg hk, hasked]
    cases (read.get? key).bind Value.asInt? with
    | none => rfl
    | some n => simp [baseEntry, hk]

end Coerced

end Covering

end Commissioning

import Commissioning.Proofs.Covering.Coerced

/-!
Which requests the check accepts. It looks at the values under the known keys, one after the other, and
at nothing else, so it accepts a request exactly if each of these values is accepted on its own: names,
speed, attributes, durations and flag do not depend on one another, but for durations, whose steps
depend on the speed.
-/
namespace Commissioning.Covering
variable {given given' : Entries}

/-! ### What the check looks at -/

theorem readSpeed_congr (h : given.get speedKey = given'.get speedKey) :
    readSpeed given = readSpeed given' := by
  unfold readSpeed
  rw [h]

theorem readBase_congr {keys : List String} (h : ∀ key ∈ keys, given.get key = given'.get key) :
    readBase given keys = readBase given' keys := by
  induction keys with
  | nil => rfl
  | cons key keys ih =>
    obtain ⟨hkey, hkeys⟩ := List.forall_mem_cons.mp h
    rw [readBase, readBase, hkey, ih hkeys]

theorem readOverrides_congr {keys : List String} (h : ∀ key ∈ keys, given.get key = given'.get key) :
    readOverrides given keys = readOverrides given' keys := by
  induction keys with
  | nil => rfl
  | cons key keys ih =>
    obtain ⟨hkey, hkeys⟩ := List.forall_mem_cons.mp h
    rw [readOverrides, readOverrides, hkey, ih hkeys]

theorem readConversions_congr {speed : Quantity} {cs : List Conversion}
    (h : ∀ c ∈ cs, given.get c.source = given'.get c.source) :
    readConversions given speed cs = readConversions given' speed cs := by
  induction cs with
  | nil => rfl
  | cons c cs ih =>
    obtain ⟨hc, hcs⟩ := List.forall_mem_cons.mp h
    rw [readConversions, readConversions, hc, ih hcs]

theorem readFlag_congr (h : given.get calibrateKey = given'.get calibrateKey) :
    readFlag given = readFlag given' := by
  unfold readFlag
  rw [h]

theorem base_known : ∀ key ∈ baseAttributes, key ∈ knownKeys := by decide

theorem override_known : ∀ key ∈ overrideAttributes, key ∈ knownKeys := by decide

theorem source_known : ∀ c ∈ conversions, c.source ∈ knownKeys := by decide

/-- Requests with the same values under the known keys are checked alike. -/
theorem validateNamed_congr (h : ∀ key ∈ knownKeys, given.get key = given'.get key) :
    validateNamed given = validateNamed given' := by
  have hspeed := h speedKey (by decide)
  have hflag := h calibrateKey (by decide)
  unfold validateNamed
  rw [readSpeed_congr hspeed, readBase_congr fun key hkey => h key (base_known key hkey),
    readOverrides_congr fun key hkey => h key (override_known key hkey), readFlag_congr hflag]
  simp only [readConversions_congr fun c hc => h c.source (source_known c hc)]

/-! ### Names -/

theorem eraseRepsBy_loop_ne_nil {α : Type} (r : α → α → Bool) (a : α) (as done : List α) :
    List.eraseRepsBy.loop r a as done ≠ [] := by
  induction as generalizing a done with
  | nil => simp [List.eraseRepsBy.loop]
  | cons b as ih =>
    rw [List.eraseRepsBy.loop]
    split
    · exact ih a done
    · exact ih b (a :: done)

theorem unknownNames_eq_nil_iff {names : List String} :
    unknownNames names = [] ↔ ∀ key ∈ names, key ∈ knownKeys := by
  refine ⟨fun h => ?_, unknownNames_eq_nil⟩
  have hsorted : (names.filter fun key => !knownKeys.contains key).mergeSort (· ≤ ·) = [] := by
    unfold unknownNames at h
    cases hs : (names.filter fun key => !knownKeys.contains key).mergeSort (· ≤ ·) with
    | nil => rfl
    | cons key keys =>
      rw [hs] at h
      exact absurd h (eraseRepsBy_loop_ne_nil _ _ _ _)
  have hperm := List.mergeSort_perm (names.filter fun key => !knownKeys.contains key) (· ≤ ·)
  rw [hsorted] at hperm
  simpa using hperm.symm.eq_nil

/-- Unknown names are told in one order, whatever the order of the names. -/
theorem unknownNames_perm {names names' : List String} (h : names.Perm names') :
    unknownNames names = unknownNames names' := by
  have hfilter := h.filter fun key => !knownKeys.contains key
  have hsorted (l : List String) : (l.mergeSort fun a b => a ≤ b).Pairwise (· ≤ ·) := by
    have htrans : ∀ a b c : String, decide (a ≤ b) → decide (b ≤ c) → decide (a ≤ c) := by
      simpa using fun a b c => String.le_trans
    have htotal : ∀ a b : String, (decide (a ≤ b) || decide (b ≤ a)) = true := by
      simpa using String.le_total
    simpa using List.pairwise_mergeSort htrans htotal l
  unfold unknownNames
  rw [(((List.mergeSort_perm _ _).trans hfilter).trans (List.mergeSort_perm _ _).symm).eq_of_pairwise
    (fun _ _ _ _ => String.le_antisymm) (hsorted _) (hsorted _)]

/-! ### Acceptance -/

/-- A duration has steps that fit an attribute. -/
def Converts (given : Entries) (c : Conversion) : Prop := ∃ duration speed steps,
  requireNumber c.source (given.get c.source) = .ok duration ∧
    Quantity.ofValue? (askedSpeed given) = some speed ∧
    stepsFor duration speed (.whole c.divisor) = .ok steps ∧ steps ≤ maximum

/-- Every part of a request is accepted on its own. -/
structure Accepted (given : Entries) : Prop where
  names : ∀ key ∈ given.map Prod.fst, key ∈ knownKeys
  speed : ∃ r, readSpeed given = .ok r
  attributes : ∀ key ∈ baseAttributes ++ overrideAttributes, given.get key ≠ .null →
    ∃ n, requireAttribute key (given.get key) = .ok n
  durations : ∀ c ∈ conversions, given.get c.source ≠ .null → Converts given c
  flag : ∃ b, readFlag given = .ok b

theorem attribute_of_readBase {keys : List String} {base : Entries}
    (h : (readBase given keys).outcome = .ok base) :
    ∀ key ∈ keys, given.get key ≠ .null → ∃ n, requireAttribute key (given.get key) = .ok n := by
  induction keys generalizing base with
  | nil => exact List.forall_mem_nil _
  | cons key keys ih =>
    by_cases hv : given.get key = .null
    · rw [readBase, hv] at h
      exact List.forall_mem_cons.mpr ⟨fun hne => absurd hv hne, ih h⟩
    · rw [readBase_cons_outcome hv] at h
      obtain ⟨n, hn, h⟩ := bind_eq_ok.mp h
      obtain ⟨rest, hrest, -⟩ := bind_eq_ok.mp h
      exact List.forall_mem_cons.mpr ⟨fun _ => ⟨n, mapError_eq_ok.mp hn⟩, ih hrest⟩

theorem attribute_of_readOverrides {keys : List String} {raw : Entries}
    (h : readOverrides given keys = .ok raw) :
    ∀ key ∈ keys, given.get key ≠ .null → ∃ n, requireAttribute key (given.get key) = .ok n := by
  induction keys generalizing raw with
  | nil => exact List.forall_mem_nil _
  | cons key keys ih =>
    by_cases hv : given.get key = .null
    · rw [readOverrides, hv] at h
      exact List.forall_mem_cons.mpr ⟨fun hne => absurd hv hne, ih h⟩
    · rw [readOverrides_cons hv] at h
      obtain ⟨n, hn, h⟩ := bind_eq_ok.mp h
      obtain ⟨rest, hrest, -⟩ := bind_eq_ok.mp h
      exact List.forall_mem_cons.mpr ⟨fun _ => ⟨n, hn⟩, ih hrest⟩

/-- Durations are converted one by one. -/
theorem exists_readConversions {speed : Quantity} {cs : List Conversion}
    (hspeed : Quantity.ofValue? (askedSpeed given) = some speed) :
    (∃ made, readConversions given speed cs = .ok made) ↔
      ∀ c ∈ cs, given.get c.source ≠ .null → Converts given c := by
  induction cs with
  | nil => exact iff_of_true ⟨[], rfl⟩ (List.forall_mem_nil _)
  | cons c cs ih =>
    rw [List.forall_mem_cons, ← ih]
    by_cases hv : given.get c.source = .null
    · rw [readConversions, hv]
      simp
    · rw [readConversions_cons hv]
      constructor
      · rintro ⟨made, h⟩
        obtain ⟨duration, hd, h⟩ := bind_eq_ok.mp h
        obtain ⟨steps, hsteps, h⟩ := bind_eq_ok.mp h
        dsimp only at h
        split at h
        · cases h
        · next hmax =>
          obtain ⟨rest, hrest, -⟩ := bind_eq_ok.mp h
          exact ⟨fun _ => ⟨duration, speed, steps, mapError_eq_ok.mp hd, hspeed,
            mapError_eq_ok.mp hsteps, Int.not_lt.mp hmax⟩, rest, hrest⟩
      · rintro ⟨hc, rest, hrest⟩
        obtain ⟨duration, speed', steps, hd, hspeed', hsteps, hmax⟩ := hc hv
        cases hspeed.symm.trans hspeed'
        refine ⟨(c.target, .int steps) :: rest, bind_eq_ok.mpr
          ⟨duration, mapError_eq_ok.mpr hd, bind_eq_ok.mpr ⟨steps, mapError_eq_ok.mpr hsteps, ?_⟩⟩⟩
        rw [if_neg (Int.not_lt.mpr hmax)]
        exact bind_eq_ok.mpr ⟨rest, hrest, rfl⟩

theorem accepted_of_validate {o : Options} (h : (validate (.dict given)).outcome = .ok o) :
    Accepted given := by
  rw [validate_named] at h
  split at h
  · next hnames =>
    obtain ⟨⟨shown, speed⟩, hs, h⟩ := Logged.bind_outcome_eq_ok.mp h
    obtain ⟨base, hb, h⟩ := Logged.bind_outcome_eq_ok.mp h
    obtain ⟨raw, hr, h⟩ := Logged.bind_outcome_eq_ok.mp h
    obtain ⟨made, hm, h⟩ := Logged.bind_outcome_eq_ok.mp h
    obtain ⟨calibrate, hc, h⟩ := Logged.bind_outcome_eq_ok.mp h
    obtain ⟨hshown, hspeed⟩ := readSpeed_ok (mapError_eq_ok.mp hs)
    exact {
      names := unknownNames_eq_nil_iff.mp (List.isEmpty_iff.mp hnames)
      speed := ⟨_, mapError_eq_ok.mp hs⟩
      attributes := List.forall_mem_append.mpr ⟨attribute_of_readBase hb,
        attribute_of_readOverrides (mapError_eq_ok.mp hr)⟩
      durations := (exists_readConversions (hshown ▸ hspeed)).mp ⟨made, hm⟩
      flag := ⟨calibrate, mapError_eq_ok.mp hc⟩ }
  · cases h

theorem Accepted.validates (h : Accepted given) : ∃ o, (validate (.dict given)).outcome = .ok o := by
  obtain ⟨hbase, hraw⟩ := List.forall_mem_append.mp h.attributes
  obtain ⟨⟨shown, speed⟩, hs⟩ := h.speed
  obtain ⟨rfl, hspeed⟩ := readSpeed_ok hs
  obtain ⟨base, hb⟩ := exists_readBase hbase
  obtain ⟨raw, hr⟩ := exists_readOverrides hraw
  obtain ⟨made, hm⟩ := (exists_readConversions hspeed).mpr h.durations
  obtain ⟨calibrate, hc⟩ := h.flag
  rw [validate_of_known h.names]
  refine ⟨{ flag := .bool calibrate, speed := askedSpeed given, base, overrides := raw ++ made }, ?_⟩
  refine Logged.bind_outcome_eq_ok.mpr ⟨_, mapError_eq_ok.mpr hs, ?_⟩
  refine Logged.bind_outcome_eq_ok.mpr ⟨base, hb, ?_⟩
  refine Logged.bind_outcome_eq_ok.mpr ⟨raw, mapError_eq_ok.mpr hr, ?_⟩
  refine Logged.bind_outcome_eq_ok.mpr ⟨made, hm, ?_⟩
  exact Logged.bind_outcome_eq_ok.mpr ⟨calibrate, mapError_eq_ok.mpr hc, rfl⟩

/-- The check accepts a request exactly if it accepts every part of it. -/
theorem exists_validated : (∃ o, (validate (.dict given)).outcome = .ok o) ↔ Accepted given :=
  ⟨fun ⟨_, h⟩ => accepted_of_validate h, Accepted.validates⟩

end Commissioning.Covering

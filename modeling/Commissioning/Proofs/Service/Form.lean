import Commissioning.Proofs.Logged
import Commissioning.Proofs.Value.Entries
import Commissioning.Service.Form

/-!
What a form makes of data. Each key is looked at by its own check and keeps its place, so what is found
under a key in the end depends on nothing but what was given under it, or on its default.

    given       { mode: 3.0,              colour: red }  ──▶ extra key
    given       { mode: 3.0 }
    + defaults  { mode: 3.0, speed: 50 }
    checked     { mode: 3,   speed: 50.0 }
-/
namespace Commissioning.Form
variable {f : Form} {given entries : Entries} {key : String} {x : Field} {v w : Value}

/-- What a check makes of a value. -/
def Makes (c : Check) (v w : Value) : Prop := c.apply v = .ok (.ok w)

/-! ### Checks of numbers -/

theorem coerce_ok {α β : Type} {r : Except Mismatch α} {p : FormProblem} {next : α → Verdict β} {b : β}
    (h : Check.coerce r p next = .ok (.ok b)) : ∃ a, r = .ok a ∧ next a = .ok (.ok b) := by
  unfold Check.coerce at h
  split at h
  · next a => exact ⟨a, rfl, h⟩
  · split at h <;> cases h

theorem simple_ok {α : Type} {g : α → Value} {r : Except FormProblem α}
    (h : Check.simple g r = .ok (.ok w)) : ∃ a, r = .ok a ∧ w = g a := by
  cases r with
  | ok a =>
    cases h
    exact ⟨a, rfl, rfl⟩
  | error p => cases h

/-- The check of an integer makes the integer of a value, within its bounds. -/
theorem makes_integer {maximum : Nat} : Makes (.integer maximum) v w ↔
    ∃ n, v.toInteger = .ok n ∧ 0 ≤ n ∧ n ≤ maximum ∧ w = .int n := by
  constructor
  · intro h
    obtain ⟨n, hn, h⟩ := coerce_ok h
    obtain ⟨n', hbounds, rfl⟩ := simple_ok h
    unfold Check.within at hbounds
    split at hbounds
    · cases hbounds
    · split at hbounds
      · cases hbounds
      · cases hbounds
        exact ⟨n, hn, by omega, by omega, rfl⟩
  · rintro ⟨n, hn, h0, hmax, rfl⟩
    have hwithin : Check.within maximum n = .ok n := by
      rw [Check.within, if_neg (by omega), if_neg (by omega)]
    simp only [Makes, Check.apply, hn, Check.coerce, hwithin]
    rfl

/-- The check of a real makes the floating point number of a value, within its bound. -/
theorem makes_real {positive : Bool} (h : Makes (.real positive) v w) :
    ∃ x, v.toReal = .ok x ∧
      (if positive then (Binary64.ofNat 0).lt x else (Binary64.ofNat 0).le x) ∧ w = .float x := by
  obtain ⟨x, hx, h⟩ := coerce_ok h
  obtain ⟨x', hbound, rfl⟩ := simple_ok h
  unfold Check.bounded at hbound
  split at hbound
  · next hp =>
    split at hbound
    · next hlt =>
      cases hbound
      exact ⟨x, hx, by rwa [if_pos hp], rfl⟩
    · cases hbound
  · next hp =>
    split at hbound
    · next hle =>
      cases hbound
      exact ⟨x, hx, by rwa [if_neg hp], rfl⟩
    · cases hbound

/-! ### Entry by entry -/

theorem checkEntry_ok : f.checkEntry key v = .ok (.ok w) ↔
    ∃ x, f.field? key = some x ∧ Makes x.check v w := by
  unfold checkEntry
  cases f.field? key with
  | none => simp [Check.inside, Except.mapError]
  | some x =>
    simp only [Option.some.injEq, exists_eq_left', Makes]
    constructor
    · intro h
      obtain ⟨r, hr, h⟩ := bind_eq_ok.mp h
      rw [hr, mapError_eq_ok.mp (Except.ok.inj h)]
    · intro h
      rw [h]
      rfl

theorem checkEntries_cons {rest : Entries} :
    f.checkEntries ((key, v) :: rest) = .ok (.ok entries) ↔ ∃ w others,
      f.checkEntry key v = .ok (.ok w) ∧ f.checkEntries rest = .ok (.ok others) ∧
      entries = (key, w) :: others := by
  constructor
  · intro h
    obtain ⟨first, hfirst, h⟩ := bind_eq_ok.mp h
    obtain ⟨others, hothers, h⟩ := bind_eq_ok.mp h
    cases first with
    | error e => cases h
    | ok w =>
      cases others with
      | error e => cases h
      | ok others =>
        cases h
        exact ⟨w, others, hfirst, hothers, rfl⟩
  · rintro ⟨w, others, hfirst, hothers, rfl⟩
    exact bind_eq_ok.mpr ⟨_, hfirst, bind_eq_ok.mpr ⟨_, hothers, rfl⟩⟩

theorem checkEntries_append {more others : Entries} (h : f.checkEntries given = .ok (.ok entries))
    (hmore : f.checkEntries more = .ok (.ok others)) :
    f.checkEntries (given ++ more) = .ok (.ok (entries ++ others)) := by
  induction given generalizing entries with
  | nil =>
    cases h
    exact hmore
  | cons e given ih =>
    obtain ⟨w, read, hfirst, hrest, rfl⟩ := checkEntries_cons.mp h
    exact checkEntries_cons.mpr ⟨w, _, hfirst, ih hrest, rfl⟩

/-- Checked entries are found where the given ones were. -/
theorem checkEntries_ok (h : f.checkEntries given = .ok (.ok entries)) (key : String) :
    Option.Rel (fun v w => f.checkEntry key v = .ok (.ok w)) (given.get? key) (entries.get? key) := by
  induction given generalizing entries with
  | nil =>
    cases h
    exact .none
  | cons e given ih =>
    obtain ⟨k, v⟩ := e
    obtain ⟨w, others, hfirst, hothers, rfl⟩ := checkEntries_cons.mp h
    rw [Entries.get?_cons, Entries.get?_cons]
    by_cases hk : key = k
    · rw [if_pos hk, if_pos hk, hk]
      exact .some hfirst
    · rw [if_neg hk, if_neg hk]
      exact ih hothers

theorem checkEntries_keys (h : f.checkEntries given = .ok (.ok entries)) :
    ∀ key ∈ given.map Prod.fst, (f.field? key).isSome := by
  induction given generalizing entries with
  | nil => simp
  | cons e given ih =>
    obtain ⟨k, v⟩ := e
    obtain ⟨w, others, hfirst, hothers, -⟩ := checkEntries_cons.mp h
    obtain ⟨x, hx, -⟩ := checkEntry_ok.mp hfirst
    rw [List.map_cons, List.forall_mem_cons]
    exact ⟨hx ▸ rfl, ih hothers⟩

/-! ### A whole form -/

theorem check_ok (h : f.check (.dict given) = .ok entries) :
    f.checkEntries (given ++ f.defaults given) = .ok (.ok entries) := by
  obtain ⟨r, hr, h⟩ := bind_eq_ok.mp h
  have hv := mapError_eq_ok.mp hr
  obtain ⟨checked, hchecked, hv⟩ := bind_eq_ok.mp hv
  obtain rfl := (mapError_eq_ok.mp h)
  obtain ⟨entries', rfl, h⟩ := bind_eq_ok.mp (Except.ok.inj hv)
  split at h
  · cases h
  · obtain ⟨_, -, h⟩ := bind_eq_ok.mp h
    cases h
    exact hchecked

theorem get?_defaults (given : Entries) (hx : f.field? key = some x)
    (hdefault : ∀ y ∈ f.fields, y.key = key → y.default = x.default) :
    (f.defaults given).get? key = if (given.get? key).isSome then none else x.default := by
  have hdefaults : f.defaults given = f.fields.filterMap fun y =>
      (if (given.get? y.key).isSome then none else y.default).map (y.key, ·) := by
    unfold defaults
    congr 1
    funext y
    split <;> rfl
  have hmem : x ∈ f.fields := List.mem_of_find?_eq_some hx
  have hkey : x.key = key := by simpa using List.find?_some hx
  subst hkey
  rw [hdefaults]
  refine Entries.get?_filterMap Field.key _ hmem fun y hy hk => ?_
  rw [hk, hdefault y hy hk]

/-- Under each key of a form there is what its check makes of the value given under it, or of its
default. -/
theorem check_field (h : f.check (.dict given) = .ok entries) (hx : f.field? key = some x)
    (hdefault : ∀ y ∈ f.fields, y.key = key → y.default = x.default) :
    Option.Rel (Makes x.check) ((given.get? key).or x.default) (entries.get? key) := by
  have hgiven : (given ++ f.defaults given).get? key = (given.get? key).or x.default := by
    rw [Entries.get?_append, get?_defaults given hx hdefault]
    cases given.get? key <;> rfl
  have hchecked := checkEntries_ok (check_ok h) key
  rw [hgiven] at hchecked
  generalize (given.get? key).or x.default = a at hchecked ⊢
  generalize entries.get? key = b at hchecked ⊢
  cases hchecked with
  | none => exact .none
  | some hentry =>
    obtain ⟨y, hy, hw⟩ := checkEntry_ok.mp hentry
    rw [hx] at hy
    cases hy
    exact .some hw

/-- All keys that are given are keys of the form. -/
theorem check_keys (h : f.check (.dict given) = .ok entries) :
    ∀ key ∈ given.map Prod.fst, ∃ x ∈ f.fields, x.key = key := by
  intro key hkey
  have hfield := checkEntries_keys (check_ok h) key (by
    rw [List.map_append]
    exact List.mem_append_left _ hkey)
  obtain ⟨x, hx⟩ := Option.isSome_iff_exists.mp hfield
  exact ⟨x, List.mem_of_find?_eq_some hx, by simpa using List.find?_some hx⟩

end Commissioning.Form

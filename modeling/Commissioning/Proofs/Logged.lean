import Commissioning.Logged
import Mathlib.Data.List.Forall2

/-!
What it takes for a computation to give a result: each part of it has to give one.
-/
namespace Commissioning
variable {ε ε' : Type} {α β : Type}

theorem bind_eq_ok {x : Except ε α} {f : α → Except ε β} {b : β} :
    (x >>= f) = .ok b ↔ ∃ a, x = .ok a ∧ f a = .ok b := by
  cases x with
  | error e => exact ⟨nofun, nofun⟩
  | ok a =>
    constructor
    · intro h
      exact ⟨a, rfl, h⟩
    · rintro ⟨_, ⟨⟩, h⟩
      exact h

theorem bind_eq_error {x : Except ε α} {f : α → Except ε β} {e : ε} :
    (x >>= f) = .error e ↔ x = .error e ∨ ∃ a, x = .ok a ∧ f a = .error e := by
  cases x with
  | error e' =>
    constructor
    · rintro ⟨⟩
      exact .inl rfl
    · rintro (⟨⟨⟩⟩ | ⟨_, ⟨⟩, _⟩)
      rfl
  | ok a =>
    constructor
    · intro h
      exact .inr ⟨a, rfl, h⟩
    · rintro (⟨⟨⟩⟩ | ⟨_, ⟨⟩, h⟩)
      exact h

theorem mapError_eq_ok {x : Except ε α} {f : ε → ε'} {a : α} :
    x.mapError f = .ok a ↔ x = .ok a := by
  cases x with
  | error e => exact ⟨nofun, nofun⟩
  | ok b => exact ⟨fun | rfl => rfl, fun | rfl => rfl⟩

theorem map_eq_ok {x : Except ε α} {f : α → β} {b : β} :
    x.map f = .ok b ↔ ∃ a, x = .ok a ∧ f a = b := by
  cases x with
  | error e => exact ⟨nofun, nofun⟩
  | ok a =>
    constructor
    · intro h
      exact ⟨a, rfl, Except.ok.inj h⟩
    · rintro ⟨_, ⟨⟩, rfl⟩
      rfl

theorem exists_ite_eq_ok {p : Prop} [Decidable p] {a : α} {e : ε} :
    (∃ b, (if p then .ok a else .error e : Except ε α) = .ok b) ↔ p := by
  by_cases hp : p <;> simp [hp]

theorem ite_eq_error {p : Prop} [Decidable p] {a : α} {e e' : ε} :
    (if p then .ok a else .error e : Except ε α) = .error e' ↔ ¬ p ∧ e = e' := by
  by_cases hp : p <;> simp [hp]

/-- A computation for each item of a list gives a list if each of them gives an item. -/
theorem mapM_eq_ok {f : α → Except ε β} {as : List α} {bs : List β} :
    as.mapM f = .ok bs ↔ List.Forall₂ (fun a b => f a = .ok b) as bs := by
  induction as generalizing bs with
  | nil =>
    rw [List.mapM_nil, List.forall₂_nil_left_iff]
    exact ⟨fun | rfl => rfl, fun | rfl => rfl⟩
  | cons a as ih =>
    rw [List.mapM_cons, bind_eq_ok, List.forall₂_cons_left_iff]
    constructor
    · rintro ⟨b, hb, h⟩
      obtain ⟨bs', hbs, h⟩ := bind_eq_ok.mp h
      cases h
      exact ⟨b, bs', hb, ih.mp hbs, rfl⟩
    · rintro ⟨b, bs', hb, hbs, rfl⟩
      exact ⟨b, hb, bind_eq_ok.mpr ⟨bs', ih.mpr hbs, rfl⟩⟩

/-- Items that are there for each item of a list make a list of their own. -/
theorem exists_forall₂ {R : α → β → Prop} {as : List α} (h : ∀ a ∈ as, ∃ b, R a b) :
    ∃ bs, List.Forall₂ R as bs := by
  induction as with
  | nil => exact ⟨[], .nil⟩
  | cons a as ih =>
    obtain ⟨⟨b, hb⟩, has⟩ := List.forall_mem_cons.mp h
    obtain ⟨bs, hbs⟩ := ih has
    exact ⟨b :: bs, .cons hb hbs⟩

/-- What follows for items from the ones that they are related to. -/
theorem forall_of_forall₂ {R : α → β → Prop} {P : α → Prop} {Q : β → Prop} {as : List α}
    {bs : List β} (h : List.Forall₂ R as bs) (hP : ∀ a b, R a b → Q b → P a)
    (hbs : ∀ b ∈ bs, Q b) : ∀ a ∈ as, P a := by
  induction h with
  | nil => exact List.forall_mem_nil _
  | @cons a b as bs hab _ ih =>
    obtain ⟨hb, hbs⟩ := List.forall_mem_cons.mp hbs
    exact List.forall_mem_cons.mpr ⟨hP a b hab hb, ih hbs⟩

/-- A computation for each item of a list gives some list if each of them gives some item. -/
theorem exists_mapM {f : α → Except ε β} {as : List α} :
    (∃ bs, as.mapM f = .ok bs) ↔ ∀ a ∈ as, ∃ b, f a = .ok b := by
  simp only [mapM_eq_ok]
  constructor
  · rintro ⟨bs, h⟩
    induction h with
    | nil => simp
    | cons hab _ ih => exact List.forall_mem_cons.mpr ⟨⟨_, hab⟩, ih⟩
  · exact exists_forall₂

/-- Two computations that agree item by item give the same list, or fail in the same way. -/
theorem mapM_congr {γ : Type} {f : α → Except ε γ} {g : β → Except ε γ} {as : List α} {bs : List β}
    (h : List.Forall₂ (fun a b => f a = g b) as bs) : as.mapM f = bs.mapM g := by
  induction h with
  | nil => rfl
  | cons hab _ ih => rw [List.mapM_cons, List.mapM_cons, hab, ih]

/-- A list fails in the way of one of its items. -/
theorem exists_of_mapM_error {f : α → Except ε β} {as : List α} {e : ε}
    (h : as.mapM f = .error e) : ∃ a ∈ as, f a = .error e := by
  induction as with
  | nil => cases h
  | cons a as ih =>
    rw [List.mapM_cons] at h
    rcases bind_eq_error.mp h with ha | ⟨b, -, h⟩
    · exact ⟨a, List.mem_cons_self, ha⟩
    · rcases bind_eq_error.mp h with has | ⟨bs, -, h⟩
      · obtain ⟨c, hc, hce⟩ := ih has
        exact ⟨c, List.mem_cons_of_mem a hc, hce⟩
      · cases h

/-- A check of each item of a list passes if all of them pass, else the list fails. -/
theorem mapM_ite {p : α → Prop} [DecidablePred p] {f : α → β} {e : ε} (as : List α) :
    (as.mapM fun a => if p a then .ok (f a) else .error e : Except ε (List β)) =
      if ∀ a ∈ as, p a then .ok (as.map f) else .error e := by
  induction as with
  | nil => simp; rfl
  | cons a as ih =>
    rw [List.mapM_cons, ih]
    by_cases ha : p a
    · by_cases has : ∀ a ∈ as, p a
      · rw [if_pos ha, if_pos has, if_pos (List.forall_mem_cons.mpr ⟨ha, has⟩)]
        rfl
      · rw [if_pos ha, if_neg has, if_neg fun h => has (List.forall_mem_cons.mp h).2]
        rfl
    · rw [if_neg ha, if_neg fun h => ha (List.forall_mem_cons.mp h).1]
      rfl

namespace Logged

@[simp] theorem outcome_pure (a : α) : (pure a : Logged α).outcome = .ok a := rfl

@[simp] theorem outcome_ofOutcome (r : Outcome α) : (ofOutcome r).outcome = r := rfl

theorem outcome_bind (x : Logged α) (f : α → Logged β) :
    (x >>= f).outcome = x.outcome >>= fun a => (f a).outcome := by
  obtain ⟨log, outcome⟩ := x
  cases outcome <;> rfl

theorem bind_outcome_eq_ok {x : Logged α} {f : α → Logged β} {b : β} :
    (x >>= f).outcome = .ok b ↔ ∃ a, x.outcome = .ok a ∧ (f a).outcome = .ok b := by
  rw [outcome_bind, bind_eq_ok]

/-- Of what follows a computation, only what follows its results counts. -/
theorem bind_congr {x : Logged α} {f f' : α → Logged β} (h : ∀ a, x.outcome = .ok a → f a = f' a) :
    (x >>= f) = x >>= f' := by
  obtain ⟨log, outcome⟩ := x
  cases outcome with
  | error e => rfl
  | ok a =>
    change (⟨log ++ (f a).log, (f a).outcome⟩ : Logged β) = ⟨log ++ (f' a).log, (f' a).outcome⟩
    rw [h a rfl]

end Logged

end Commissioning

import Commissioning.Proofs.InputAction.Expansion

/-!
Templates read off their fields. Whether fields are well formed is asked of each field on its own, and
what a template holds is read off them field by field, so neither depends on where the template
stands.

    { type: scene, scene_id: 5, group_id: 7, input: 3 }
    well formed     5 ≤ 255, 7 ≤ 65535, 3 ≤ 255
    template        ⟨scene ⟨5, some 7⟩ none, some 3, none, none⟩
-/
namespace Commissioning

namespace Template

/-- The type that fields name. -/
def family? (fields : Entries) : Option Family :=
  match fields.get "type" with
  | .str s => Family.ofName? s
  | _ => none

/-- The number under a key. -/
def number? (fields : Entries) (key : String) : Option Numeral := Numeral.ofValue? (fields.get key)

/-- The items of a list or a tuple of two. -/
def twoOf? : Value → Option (Value × Value)
  | .list [a, b] | .tuple [a, b] => some (a, b)
  | _ => none

/-- The pair of inputs that fields name. -/
def pair? (fields : Entries) : Option (Numeral × Numeral) := do
  let (a, b) ← twoOf? (fields.get "inputs")
  return (← Numeral.ofValue? a, ← Numeral.ofValue? b)

/-- The scene under one key with the group under another. -/
def scene? (fields : Entries) (sceneKey groupKey : String) : Option SceneChoice :=
  (number? fields sceneKey).map fun n =>
    { scene := n, group := (number? fields groupKey).map Numeral.number }

/-- The behaviour that fields describe. -/
def behaviour? (fields : Entries) : Option Behaviour := do
  let dimming := dimmingOf fields (number? fields "rate")
  let primary := scene? fields "scene_id" "group_id"
  let secondary := scene? fields "scene_id_2" "group_id_2"
  match ← family? fields with
  | .toggle => some .toggle
  | .toggleSwitch => some .toggleSwitch
  | .onOffSwitch => some .onOffSwitch
  | .on => some .on
  | .off => some .off
  | .dimmerSingle => some (.dimmerSingle dimming)
  | .dimmerDouble => some (.dimmerDouble dimming)
  | .cover => some .cover
  | .coverSwitch => some .coverSwitch
  | .coverUp => some .coverUp
  | .coverDown => some .coverDown
  | .scene => primary.map fun choice => .scene choice secondary
  | .sceneSwitch => primary.map fun choice => .sceneSwitch choice secondary

/-- The template that fields describe, whether or not they are well formed. -/
def read? (fields : Entries) : Option Template :=
  (behaviour? fields).map fun behaviour =>
    { behaviour, input := number? fields "input", inputs := pair? fields,
      endpoint := number? fields "endpoint" }

/-- An integer from 0 to `maximum`. -/
def IsUpTo (maximum : Nat) (v : Value) : Prop :=
  ∃ n, Numeral.ofValue? v = some n ∧ 0 ≤ n.number ∧ n.number ≤ maximum

/-- A pair of inputs. -/
def IsPair (v : Value) : Prop :=
  ∃ a b, twoOf? v = some (a, b) ∧ IsUpTo 255 a ∧ IsUpTo 255 b

/-- The fields that hold numbers, each with the greatest one that it may hold. -/
def numberFields : List (String × Nat) := [("input", 255), ("endpoint", 255), ("rate", 255),
  ("scene_id", 255), ("scene_id_2", 255), ("group_id", 65535), ("group_id_2", 65535)]

/-- Whatever is given under the keys of templates fits there. -/
structure WellFormed (fields : Entries) : Prop where
  numbers : ∀ e ∈ numberFields, fields.get e.1 = .null ∨ IsUpTo e.2 (fields.get e.1)
  inputs : fields.get "inputs" = .null ∨ IsPair (fields.get "inputs")

/-- Well-formed fields describe a template. -/
def Describes (fields : Entries) (t : Template) : Prop := WellFormed fields ∧ read? fields = some t

variable {family : Family} {index : Nat} {fields : Entries} {key : String} {maximum : Nat}

/-! ### One field -/

theorem familyOf_eq_ok : familyOf index fields = .ok family ↔ family? fields = some family := by
  unfold familyOf family?
  cases fields.get "type" with
  | str s =>
    dsimp only
    cases Family.ofName? s with
    | some f => simp
    | none => simp
  | _ => simp

theorem checkNumber_eq_ok {v : Value} {n : Numeral} :
    checkNumber family index key maximum v = .ok n ↔
      Numeral.ofValue? v = some n ∧ 0 ≤ n.number ∧ n.number ≤ maximum := by
  unfold checkNumber
  cases Numeral.ofValue? v with
  | none => simp
  | some m =>
    dsimp only
    split
    · next hm =>
      constructor
      · intro h
        cases h
        exact ⟨rfl, hm⟩
      · rintro ⟨⟨⟩, -⟩
        rfl
    · next hm =>
      constructor
      · intro h
        cases h
      · rintro ⟨⟨⟩, hn⟩
        exact absurd hn hm

theorem optionalNumber_eq_ok {r : Option Numeral} :
    optionalNumber family index fields key maximum = .ok r ↔
      (fields.get key = .null ∨ IsUpTo maximum (fields.get key)) ∧ r = number? fields key := by
  have hvalue (v : Value) (hv : v ≠ .null) :
      ((checkNumber family index key maximum v).map some = .ok r) ↔
        (v = .null ∨ IsUpTo maximum v) ∧ r = Numeral.ofValue? v := by
    rw [map_eq_ok]
    simp only [checkNumber_eq_ok]
    constructor
    · rintro ⟨n, ⟨hn, hrange⟩, rfl⟩
      exact ⟨.inr ⟨n, hn, hrange⟩, hn.symm⟩
    · rintro ⟨hnull | ⟨n, hn, hrange⟩, rfl⟩
      · exact absurd hnull hv
      · exact ⟨n, ⟨hn, hrange⟩, hn.symm⟩
  unfold optionalNumber number?
  generalize fields.get key = v at hvalue ⊢
  cases v with
  | null =>
    simp only [true_or, true_and]
    exact ⟨fun h => (Except.ok.inj h).symm, fun h => congrArg Except.ok h.symm⟩
  | _ => exact hvalue _ nofun

theorem isPair_iff {v a b : Value} (hv : twoOf? v = some (a, b)) :
    IsPair v ↔ IsUpTo 255 a ∧ IsUpTo 255 b := by
  unfold IsPair
  rw [hv]
  constructor
  · rintro ⟨_, _, ⟨⟩, h⟩
    exact h
  · intro h
    exact ⟨a, b, rfl, h⟩

/-- Two numbers are checked one after the other. -/
theorem checkTwo_eq_ok {a b : Value} {r : Option (Numeral × Numeral)} : (do
      let first ← checkNumber family index "inputs" 255 a
      let second ← checkNumber family index "inputs" 255 b
      return some (first, second)) = .ok r ↔
    (IsUpTo 255 a ∧ IsUpTo 255 b) ∧ r = do
      return (← Numeral.ofValue? a, ← Numeral.ofValue? b) := by
  simp only [bind_eq_ok, checkNumber_eq_ok]
  constructor
  · rintro ⟨m, ⟨hm, hm'⟩, n, ⟨hn, hn'⟩, h⟩
    cases h
    rw [hm, hn]
    exact ⟨⟨⟨m, hm, hm'⟩, n, hn, hn'⟩, rfl⟩
  · rintro ⟨⟨⟨m, hm, hm'⟩, n, hn, hn'⟩, rfl⟩
    rw [hm, hn]
    exact ⟨m, ⟨rfl, hm'⟩, n, ⟨rfl, hn'⟩, rfl⟩

theorem optionalPair_eq_ok {r : Option (Numeral × Numeral)} :
    optionalPair family index fields = .ok r ↔
      (fields.get "inputs" = .null ∨ IsPair (fields.get "inputs")) ∧ r = pair? fields := by
  have hpair {v a b : Value} (hv : twoOf? v = some (a, b)) :
      ((IsUpTo 255 a ∧ IsUpTo 255 b) ∧
          r = do return (← Numeral.ofValue? a, ← Numeral.ofValue? b)) ↔
        (v = .null ∨ IsPair v) ∧ r = do
          let (a, b) ← twoOf? v
          return (← Numeral.ofValue? a, ← Numeral.ofValue? b) := by
    have hnull : v ≠ .null := by
      rintro rfl
      cases hv
    rw [or_iff_right hnull, isPair_iff hv, hv]
    rfl
  unfold optionalPair pair?
  generalize fields.get "inputs" = v
  split
  · simp only [true_or, true_and]
    exact ⟨fun h => (Except.ok.inj h).symm, fun h => congrArg Except.ok h.symm⟩
  · exact checkTwo_eq_ok.trans (hpair rfl)
  · exact checkTwo_eq_ok.trans (hpair rfl)
  · next hnull hlist htuple =>
    have hnone : twoOf? v = none := by
      unfold twoOf?
      split
      · exact absurd rfl (hlist _ _)
      · exact absurd rfl (htuple _ _)
      · rfl
    have hv : v ≠ .null := hnull
    simp [IsPair, hnone, hv]

/-! ### A template -/

/-- What a behaviour holds is read off fields. -/
def ReadFrom (fields : Entries) : Behaviour → Prop
  | .dimmerSingle dimming | .dimmerDouble dimming =>
    dimming = dimmingOf fields (number? fields "rate")
  | .scene primary secondary | .sceneSwitch primary secondary =>
    scene? fields "scene_id" "group_id" = some primary ∧
      secondary = scene? fields "scene_id_2" "group_id_2"
  | _ => True

theorem behaviour?_eq_some {x : Behaviour} :
    behaviour? fields = some x ↔ family? fields = some x.family ∧ ReadFrom fields x := by
  constructor
  · intro h
    obtain ⟨f, hf, h⟩ := Option.bind_eq_some_iff.mp h
    rw [hf]
    cases f with
    | scene | sceneSwitch =>
      obtain ⟨choice, hchoice, rfl⟩ := Option.map_eq_some_iff.mp h
      exact ⟨rfl, hchoice, rfl⟩
    | _ =>
      cases h
      exact ⟨rfl, by trivial⟩
  · rintro ⟨hf, hread⟩
    unfold behaviour?
    rw [hf]
    cases x with
    | scene primary secondary | sceneSwitch primary secondary =>
      obtain ⟨hprimary, rfl⟩ := hread
      change Option.map _ (scene? fields "scene_id" "group_id") = _
      rw [hprimary]
      rfl
    | dimmerSingle dimming | dimmerDouble dimming =>
      obtain rfl := hread
      rfl
    | _ => rfl

theorem wellFormed_iff : WellFormed fields ↔
    (∀ e ∈ numberFields, fields.get e.1 = .null ∨ IsUpTo e.2 (fields.get e.1)) ∧
      (fields.get "inputs" = .null ∨ IsPair (fields.get "inputs")) :=
  ⟨fun h => ⟨h.numbers, h.inputs⟩, fun h => ⟨h.1, h.2⟩⟩

theorem ok_eq_iff {ε α : Type} {a b : α} : (Except.ok a : Except ε α) = .ok b ↔ some a = some b :=
  ⟨fun h => congrArg some (Except.ok.inj h), fun h => congrArg Except.ok (Option.some.inj h)⟩

/-- Fields make a template exactly if they are well formed, and then it is the one that they
describe. -/
theorem ofFields_eq_ok {t : Template} : ofFields index fields = .ok t ↔ Describes fields t := by
  unfold ofFields
  simp only [bind_eq_ok, familyOf_eq_ok, optionalNumber_eq_ok, optionalPair_eq_ok, and_assoc,
    exists_and_left, exists_eq_left]
  rw [Describes, wellFormed_iff]
  simp only [numberFields, List.forall_mem_cons, List.not_mem_nil, false_implies, implies_true,
    and_true, and_assoc]
  -- fields are the same on both sides, and what is left is the template
  cases hfamily : family? fields with
  | none => simp [read?, behaviour?, hfamily]
  | some family =>
    simp only [Option.some.injEq, exists_eq_left', and_congr_right_iff]
    intros
    unfold read? behaviour? scene?
    rw [hfamily]
    cases family with
    | scene | sceneSwitch =>
      cases number? fields "scene_id" with
      | none => exact iff_of_false (fun h => by cases h) fun h => by cases h
      | some n => exact ok_eq_iff
    | _ => exact ok_eq_iff

/-- What given fields hold is what a template takes from them. -/
theorem Describes.reads {t : Template} (h : Describes fields t) :
    family? fields = some t.behaviour.family ∧ t.input = number? fields "input" ∧
      t.inputs = pair? fields ∧ t.endpoint = number? fields "endpoint" := by
  obtain ⟨x, hx, rfl⟩ := Option.map_eq_some_iff.mp h.2
  exact ⟨(behaviour?_eq_some.mp hx).1, rfl, rfl, rfl⟩

theorem Describes.readFrom {t : Template} (h : Describes fields t) : ReadFrom fields t.behaviour := by
  obtain ⟨x, hx, rfl⟩ := Option.map_eq_some_iff.mp h.2
  exact (behaviour?_eq_some.mp hx).2

/-- A number that is given can be read, and is in its range. -/
theorem WellFormed.number (h : WellFormed fields) (hkey : (key, maximum) ∈ numberFields)
    (hgiven : fields.get key ≠ .null) :
    ∃ n, number? fields key = some n ∧ 0 ≤ n.number ∧ n.number ≤ maximum :=
  (h.numbers _ hkey).resolve_left hgiven

theorem WellFormed.range (h : WellFormed fields) (hkey : (key, maximum) ∈ numberFields) :
    ∀ n ∈ number? fields key, 0 ≤ n.number ∧ n.number ≤ maximum := by
  intro n hn
  have hgiven : fields.get key ≠ .null := by
    intro hnull
    rw [number?, hnull] at hn
    cases hn
  obtain ⟨m, hm, hrange⟩ := h.number hkey hgiven
  cases hm.symm.trans hn
  exact hrange

/-- Inputs that are given are a pair. -/
theorem WellFormed.pair (h : WellFormed fields) (hgiven : fields.get "inputs" ≠ .null) :
    (pair? fields).isSome := by
  obtain ⟨a, b, htwo, ⟨m, hm, -⟩, n, hn, -⟩ := h.inputs.resolve_left hgiven
  have hpair : pair? fields = some (m, n) := by
    unfold pair?
    rw [htwo]
    change (do return (← Numeral.ofValue? a, ← Numeral.ofValue? b)) = some (m, n)
    rw [hm, hn]
    rfl
  exact hpair ▸ rfl

end Template

/-- Values are well-formed templates wherever the first one stands. -/
theorem checks_iff {index : Nat} {vs : List Value} {ts : List Template} : Checks index vs ts ↔
    List.Forall₂ (fun v t => ∃ fields, v = .dict fields ∧ Template.Describes fields t) vs ts := by
  constructor
  · intro h
    induction h with
    | nil index => exact .nil
    | cons ht _ ih => exact .cons ⟨_, rfl, Template.ofFields_eq_ok.mp ht⟩ ih
  · intro h
    induction h generalizing index with
    | nil => exact .nil index
    | cons hv _ ih =>
      obtain ⟨fields, rfl, ht⟩ := hv
      exact .cons (Template.ofFields_eq_ok.mpr ht) ih

/-- What holds of templates exactly if it holds of their fields. -/
theorem Checks.forall_iff {index : Nat} {vs : List Value} {ts : List Template}
    {P : Template → Prop} {Q : Entries → Prop} (h : Checks index vs ts)
    (hPQ : ∀ fields t, Template.Describes fields t → (P t ↔ Q fields)) :
    (∀ t ∈ ts, P t) ↔ ∀ fields, .dict fields ∈ vs → Q fields := by
  induction h with
  | nil index => simp
  | @cons index fields t vs ts ht _ ih =>
    rw [List.forall_mem_cons, ih, hPQ fields t (Template.ofFields_eq_ok.mp ht)]
    simp

/-- What holds of every template that fields describe. -/
theorem Checks.forall {index : Nat} {vs : List Value} {ts : List Template} {P : Template → Prop}
    (h : Checks index vs ts) (hP : ∀ fields t, Template.Describes fields t → P t) : ∀ t ∈ ts, P t :=
  (h.forall_iff (Q := fun _ => True) fun fields t ht => iff_true_intro (hP fields t ht)).mpr
    fun _ _ => trivial

end Commissioning

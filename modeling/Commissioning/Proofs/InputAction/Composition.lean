import Commissioning.Proofs.InputAction.Refusal

/-!
Lists of templates compiled piece by piece. From a cursor, templates compile to rows and leave a
cursor, and those of a list in two parts are the ones of its parts, the second one compiled from where
the first one leaves the cursor:

    c ──p──▶ front, c' ──s──▶ back, c''        c ──p ++ s──▶ front ++ back, c''

So what comes after templates depends on them through the cursor only. A template that names its
endpoint and its inputs takes nothing but the group from the cursor, and scenes that name their group
do not take that, so both together cut off all that came before.

Compiling a list fails where its first part that does not compile ends.
-/
namespace Commissioning

/-! ### Compiling from a cursor -/

/-- From a cursor, templates compile to rows and leave another cursor. -/
inductive Compiles (model : Model) :
    Cursor Numeral → List Entries → List InputAction → Cursor Numeral → Prop where
  | nil (c : Cursor Numeral) : Compiles model c [] [] c
  | cons {c c' : Cursor Numeral} {fields : Entries} {t : Template} {rest : List Entries}
    {rows : List InputAction} (head : Template.Describes fields t)
    (fits : (t.expansion model c).Fits) (tail : Compiles model (t.after model c) rest rows c') :
    Compiles model c (fields :: rest) ((t.expansion model c).actions ++ rows) c'

section
variable {model : Model} {c c' : Cursor Numeral} {p s : List Entries} {rows : List InputAction}

theorem Compiles.unique {rows' : List InputAction} {d : Cursor Numeral}
    (h : Compiles model c p rows c') (h' : Compiles model c p rows' d) : rows = rows' ∧ c' = d := by
  induction h generalizing rows' with
  | nil c =>
    cases h'
    exact ⟨rfl, rfl⟩
  | cons ht _ _ ih =>
    cases h' with
    | cons ht' _ htail =>
      cases ht.2.symm.trans ht'.2
      obtain ⟨rfl, rfl⟩ := ih htail
      exact ⟨rfl, rfl⟩

/-- A list in two parts compiles as its parts do, one after the other. -/
theorem compiles_append : Compiles model c (p ++ s) rows c' ↔ ∃ front back d,
    Compiles model c p front d ∧ Compiles model d s back c' ∧ rows = front ++ back := by
  induction p generalizing c rows with
  | nil =>
    constructor
    · intro h
      exact ⟨[], rows, c, .nil c, h, rfl⟩
    · rintro ⟨_, back, _, ⟨⟩, h, rfl⟩
      exact h
  | cons fields p ih =>
    constructor
    · intro h
      cases h with
      | cons ht hfits htail =>
        obtain ⟨front, back, d, hp, hs, rfl⟩ := ih.mp htail
        exact ⟨_, back, d, .cons ht hfits hp, hs, (List.append_assoc ..).symm⟩
    · rintro ⟨_, back, d, hp, hs, rfl⟩
      cases hp with
      | cons ht hfits hp =>
        rw [List.append_assoc]
        exact .cons ht hfits (ih.mpr ⟨_, back, d, hp, hs, rfl⟩)

theorem compileOne_dict_eq_ok {index : Nat} {fields : Entries} {r : Expansion × Cursor Numeral} :
    compileOne model index c (.dict fields) = .ok r ↔ ∃ t, Template.Describes fields t ∧
      (t.expansion model c).Fits ∧ r = (t.expansion model c, t.after model c) := by
  rw [compileOne_eq_ok]
  constructor
  · rintro ⟨_, t, ⟨⟩, ht, hfits⟩
    exact ⟨t, Template.ofFields_eq_ok.mp ht, hfits⟩
  · rintro ⟨t, ht, hfits⟩
    exact ⟨fields, t, rfl, Template.ofFields_eq_ok.mpr ht, hfits⟩

/-- A run without a fault has compiled every template, wherever its positions begin. -/
theorem run_actions_eq_ok {index : Nat} :
    (Compilation.run model index c (p.map Value.dict)).actions = .ok rows ↔
      ∃ c', Compiles model c p rows c' := by
  induction p generalizing index c rows with
  | nil =>
    constructor
    · intro h
      cases h
      exact ⟨c, .nil c⟩
    · rintro ⟨_, ⟨⟩⟩
      rfl
  | cons fields p ih =>
    rw [List.map_cons, Compilation.actions_eq_ok]
    constructor
    · rintro ⟨hfault, rfl⟩
      cases hone : compileOne model index c (.dict fields) with
      | error fault =>
        rw [Compilation.run_cons_of_error hone] at hfault
        cases hfault
      | ok r =>
        obtain ⟨t, ht, hfits, rfl⟩ := compileOne_dict_eq_ok.mp hone
        rw [Compilation.run_cons_of_ok hone] at hfault ⊢
        obtain ⟨c', hrest⟩ := ih.mp (Compilation.actions_eq_ok.mpr ⟨hfault, rfl⟩)
        exact ⟨c', .cons ht hfits hrest⟩
    · rintro ⟨c', h⟩
      cases h with
      | cons ht hfits hrest =>
        obtain ⟨hfault, hrows⟩ := Compilation.actions_eq_ok.mp (ih.mpr ⟨c', hrest⟩)
        rw [Compilation.run_cons_of_ok (compileOne_dict_eq_ok.mpr ⟨_, ht, hfits, rfl⟩), hrows]
        exact ⟨hfault, rfl⟩

end

namespace Behaviour
variable {a b endpoint : Numeral} {x : Behaviour}

end Behaviour

/-- Cursors that differ in their groups at most. -/
structure Cursor.SamePlace (c d : Cursor Numeral) : Prop where
  inputs : c.inputs = d.inputs
  endpoint : c.endpoint = d.endpoint

namespace Template
variable {model : Model} {c d : Cursor Numeral} {t : Template}

/-- A template that names its endpoint and the inputs that its type uses. -/
structure OwnPlace (t : Template) : Prop where
  endpoint : t.endpoint.isSome
  inputs : t.input.isSome ∨ t.family.isDouble ∧ t.inputs.isSome

/-- A template that names its place is put there wherever the cursor stands. -/
theorem OwnPlace.place (h : t.OwnPlace) : (c.place model t).SamePlace (d.place model t) := by
  obtain ⟨n, hn⟩ := Option.isSome_iff_exists.mp h.endpoint
  constructor
  · rcases h.inputs with hinput | ⟨hdouble, hinputs⟩
    · obtain ⟨m, hm⟩ := Option.isSome_iff_exists.mp hinput
      unfold Cursor.place
      rw [hm]
    · obtain ⟨m, hm⟩ := Option.isSome_iff_exists.mp hinputs
      unfold Cursor.place Template.pair
      rw [hm]
      change (if t.family.isDouble then _ else _) = if t.family.isDouble then _ else _
      rw [if_pos hdouble, if_pos hdouble]
      rfl
  · unfold Cursor.place
    rw [hn]
    rfl

/-- Fields ask for scenes. -/
def asksScene (fields : Entries) : Bool := (family? fields).any Family.isScene

variable {fields : Entries}

theorem WellFormed.isSome (h : WellFormed fields) {key : String} {maximum : Nat}
    (hkey : (key, maximum) ∈ numberFields) (hgiven : fields.get key ≠ .null) :
    (number? fields key).isSome := by
  obtain ⟨n, hn, -⟩ := h.number hkey hgiven
  rw [hn]
  rfl

theorem Describes.asksScene (h : Describes fields t) : asksScene fields = t.family.isScene := by
  obtain ⟨hfamily, -⟩ := h.reads
  rw [Template.asksScene, hfamily]
  rfl

end Template

/-! ### Two cursors before one list -/

/-- What templates compile to for a model. -/
def compiled (name : Value) (p : List Entries) : Outcome (List InputAction) :=
  (compileInputActions (.list (p.map Value.dict)) name).outcome

section
variable {name : Value} {p q s : List Entries} {rows front front' : List InputAction}

theorem compiled_eq_run {model : Model} (hmodel : Model.ofValue name = .ok model) :
    compiled name p = (compileTemplates model (p.map Value.dict)).actions := by
  rw [compiled, compileInputActions_outcome, hmodel]
  rfl

theorem compiled_eq_ok : compiled name p = .ok rows ↔ ∃ model, Model.ofValue name = .ok model ∧
    ∃ c, Compiles model (.start model) p rows c := by
  constructor
  · intro h
    have hnamed := h
    rw [compiled, compileInputActions_outcome] at hnamed
    obtain ⟨model, hmodel, -⟩ := bind_eq_ok.mp hnamed
    rw [compiled_eq_run hmodel] at h
    exact ⟨model, hmodel, run_actions_eq_ok.mp h⟩
  · rintro ⟨model, hmodel, h⟩
    rw [compiled_eq_run hmodel]
    exact run_actions_eq_ok.mpr h

end

end Commissioning

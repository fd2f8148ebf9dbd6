import Commissioning.InputAction.Compile
import Commissioning.Proofs.Logged

/-!
What a compilation takes. It succeeds if every template is well formed and every row that comes out
fits, and then its rows are those of the templates, each expanded where the cursor stands:

    values ──Checks──▶ templates ──expansions──▶ rows ──Fits──▶ compiled
-/
namespace Commissioning
variable {model : Model} {index : Nat} {c : Cursor Numeral} {t : Template}

/-- Values that are well-formed templates, the first one at position `index`. -/
inductive Checks : Nat → List Value → List Template → Prop where
  | nil (index : Nat) : Checks index [] []
  | cons {index : Nat} {fields : Entries} {t : Template} {vs : List Value} {ts : List Template}
    (head : Template.ofFields index fields = .ok t) (tail : Checks (index + 1) vs ts) :
    Checks index (.dict fields :: vs) (t :: ts)

theorem Checks.unique {vs : List Value} {ts ts' : List Template} (h : Checks index vs ts)
    (h' : Checks index vs ts') : ts' = ts := by
  induction h generalizing ts' with
  | nil index =>
    cases h'
    rfl
  | @cons index fields t vs ts ht _ ih =>
    cases h' with
    | cons ht' hrest =>
      cases ht.symm.trans ht'
      rw [ih hrest]

namespace Template

/-- What a template expands to at a cursor that stands before it, whether or not its rows fit. -/
def expansion (model : Model) (c : Cursor Numeral) (t : Template) : Expansion where
  family := t.behaviour.family
  inputs := (c.place model t).inputs
  endpoint := (c.place model t).endpoint
  actions := (c.place model t).actions t

/-- Where a template leaves the cursor. -/
def after (model : Model) (c : Cursor Numeral) (t : Template) : Cursor Numeral :=
  (c.place model t).leave t

end Template

/-- Templates expanded one after the other. -/
def expansions (model : Model) (c : Cursor Numeral) : List Template → List Expansion
  | [] => []
  | t :: ts => t.expansion model c :: expansions model (t.after model c) ts

/-- Every expansion is that of a template at some cursor. -/
theorem exists_of_mem_expansions {ts : List Template} {e : Expansion}
    (h : e ∈ expansions model c ts) : ∃ c' t, e = Template.expansion model c' t := by
  induction ts generalizing c with
  | nil => cases h
  | cons t ts ih =>
    rcases List.mem_cons.mp h with rfl | h
    · exact ⟨c, t, rfl⟩
    · exact ih h

/-- All rows of an expansion fit. -/
def Expansion.Fits (e : Expansion) : Prop := ∀ a ∈ e.actions, rowFits a.row

theorem expand_eq_ok {r : Expansion × Cursor Numeral} : t.expand model index c = .ok r ↔
    (t.expansion model c).Fits ∧ r = (t.expansion model c, t.after model c) := by
  have hfits : (t.expansion model c).Fits ↔
      ((c.place model t).actions t).find? (fun a => !rowFits a.row) = none := by
    rw [List.find?_eq_none]
    simp [Expansion.Fits, Template.expansion]
  rw [hfits]
  unfold Template.expand
  dsimp only
  split
  · next a ha => simp [ha]
  · next ha =>
    rw [ha]
    constructor
    · intro h
      cases h
      exact ⟨rfl, rfl⟩
    · rintro ⟨-, rfl⟩
      rfl

theorem compileOne_eq_ok {v : Value} {r : Expansion × Cursor Numeral} :
    compileOne model index c v = .ok r ↔ ∃ fields t, v = .dict fields ∧
      Template.ofFields index fields = .ok t ∧ (t.expansion model c).Fits ∧
      r = (t.expansion model c, t.after model c) := by
  unfold compileOne
  split
  · next fields =>
    rw [mapError_eq_ok]
    constructor
    · intro h
      obtain ⟨t, ht, hr⟩ := bind_eq_ok.mp h
      exact ⟨fields, t, rfl, ht, expand_eq_ok.mp hr⟩
    · rintro ⟨_, t, ⟨⟩, ht, hr⟩
      exact bind_eq_ok.mpr ⟨t, ht, expand_eq_ok.mpr hr⟩
  · next hno =>
    constructor
    · intro h
      cases h
    · rintro ⟨fields, _, rfl, -⟩
      exact absurd rfl (hno fields)

namespace Compilation

theorem run_cons_of_ok {v : Value} {vs : List Value} {e : Expansion} {next : Cursor Numeral}
    (h : compileOne model index c v = .ok (e, next)) : run model index c (v :: vs) =
      ⟨e :: (run model (index + 1) next vs).done, (run model (index + 1) next vs).fault⟩ := by
  rw [run, h]

theorem run_cons_of_error {v : Value} {vs : List Value} {fault : Fault}
    (h : compileOne model index c v = .error fault) :
    run model index c (v :: vs) = ⟨[], some fault⟩ := by
  rw [run, h]

/-- A run without a fault has checked every template and expanded all of them. -/
theorem expansions_of_run {vs : List Value} (h : (run model index c vs).fault = none) :
    ∃ ts, Checks index vs ts ∧ (∀ e ∈ expansions model c ts, e.Fits) ∧
      (run model index c vs).done = expansions model c ts := by
  induction vs generalizing index c with
  | nil => exact ⟨[], .nil index, by simp [expansions], rfl⟩
  | cons v vs ih =>
    cases hv : compileOne model index c v with
    | error fault =>
      rw [run_cons_of_error hv] at h
      cases h
    | ok r =>
      obtain ⟨fields, t, rfl, ht, hfits, rfl⟩ := compileOne_eq_ok.mp hv
      rw [run_cons_of_ok hv] at h ⊢
      obtain ⟨ts, hts, hrest, hdone⟩ := ih h
      refine ⟨t :: ts, .cons ht hts, List.forall_mem_cons.mpr ⟨hfits, hrest⟩, ?_⟩
      rw [hdone, expansions]

/-- Well-formed templates whose rows fit compile. -/
theorem run_of_checks {vs : List Value} {ts : List Template} (h : Checks index vs ts)
    (hfits : ∀ e ∈ expansions model c ts, e.Fits) :
    run model index c vs = ⟨expansions model c ts, none⟩ := by
  induction h generalizing c with
  | nil index => rfl
  | @cons index fields t vs ts ht _ ih =>
    obtain ⟨hfits, hrest⟩ := List.forall_mem_cons.mp hfits
    rw [run_cons_of_ok (compileOne_eq_ok.mpr ⟨fields, t, rfl, ht, hfits, rfl⟩), ih hrest]
    rfl

end Compilation

/-- The templates that a value holds; a single one may stand without a list around it. -/
def templateItems (templates : Value) : Except Mismatch (List Value) :=
  match templates with
  | .dict fields => .ok [.dict fields]
  | v => v.items

theorem compileInputActions_outcome (templates name : Value) :
    (compileInputActions templates name).outcome = Model.ofValue name >>= fun model =>
      ofMismatch (templateItems templates) >>= fun vs => (compileTemplates model vs).actions := by
  unfold compileInputActions
  cases Model.ofValue name with
  | error fault => rfl
  | ok model =>
    cases templates
    all_goals rfl

theorem Compilation.actions_eq_ok {c : Compilation} {actions : List InputAction} :
    c.actions = .ok actions ↔ c.fault = none ∧ actions = c.done.flatMap Expansion.actions := by
  unfold Compilation.actions
  cases c.fault with
  | none =>
    constructor
    · intro h
      cases h
      exact ⟨rfl, rfl⟩
    · rintro ⟨-, rfl⟩
      rfl
  | some fault =>
    constructor
    · intro h
      cases h
    · rintro ⟨h, -⟩
      cases h

/-- What a value compiles to for a model: the rows of well-formed templates, all of which fit. -/
theorem compileInputActions_eq_ok {templates name : Value} {actions : List InputAction} :
    (compileInputActions templates name).outcome = .ok actions ↔ ∃ model vs ts,
      Model.ofValue name = .ok model ∧ templateItems templates = .ok vs ∧ Checks 0 vs ts ∧
      (∀ e ∈ expansions model (.start model) ts, e.Fits) ∧
      actions = (expansions model (.start model) ts).flatMap Expansion.actions := by
  rw [compileInputActions_outcome]
  constructor
  · intro h
    obtain ⟨model, hmodel, h⟩ := bind_eq_ok.mp h
    obtain ⟨vs, hvs, h⟩ := bind_eq_ok.mp h
    obtain ⟨hfault, rfl⟩ := Compilation.actions_eq_ok.mp h
    obtain ⟨ts, hts, hfits, hdone⟩ := Compilation.expansions_of_run hfault
    exact ⟨model, vs, ts, hmodel, mapError_eq_ok.mp hvs, hts, hfits, congrArg _ hdone⟩
  · rintro ⟨model, vs, ts, hmodel, hvs, hts, hfits, rfl⟩
    refine bind_eq_ok.mpr ⟨model, hmodel, bind_eq_ok.mpr ⟨vs, mapError_eq_ok.mpr hvs, ?_⟩⟩
    rw [compileTemplates, Compilation.run_of_checks hts hfits]
    rfl

/-- For a known model, well-formed templates compile exactly if all of their rows fit. -/
theorem exists_compiled_iff {templates name : Value} {vs : List Value} {ts : List Template}
    (hmodel : Model.ofValue name = .ok model) (hvs : templateItems templates = .ok vs)
    (hts : Checks 0 vs ts) :
    (∃ actions, (compileInputActions templates name).outcome = .ok actions) ↔
      ∀ e ∈ expansions model (.start model) ts, e.Fits := by
  constructor
  · rintro ⟨actions, hactions⟩
    obtain ⟨model', vs', ts', hmodel', hvs', hts', hfits, -⟩ := compileInputActions_eq_ok.mp hactions
    cases hmodel.symm.trans hmodel'
    cases hvs.symm.trans hvs'
    cases hts.unique hts'
    exact hfits
  · intro hfits
    exact ⟨_, compileInputActions_eq_ok.mpr ⟨model, vs, ts, hmodel, hvs, hts, hfits, rfl⟩⟩

end Commissioning

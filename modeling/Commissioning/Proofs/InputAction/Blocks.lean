import Commissioning.Proofs.InputAction.Composition

/-!
The rows of each template of a list. What a list compiles to falls into one block for each of its
templates, in order, and the block of a template is what it expands to where the templates before it
have left the cursor:

    fields        p₀        p₁        p₂       …
    blocks        b₀        b₁        b₂       …
    compiled      b₀   ++   b₁   ++   b₂   ++  …
-/
namespace Commissioning

/-- What each template of a list compiles to. -/
def blocks (model : Model) (p : List Entries) : List (List InputAction) :=
  (compileTemplates model (p.map Value.dict)).done.map Expansion.actions

/-- Well-formed templates are described by fields. -/
theorem Checks.fields {index : Nat} {vs : List Value} {ts : List Template}
    (h : Checks index vs ts) :
    ∃ p : List Entries, vs = p.map Value.dict ∧ List.Forall₂ Template.Describes p ts := by
  induction h with
  | nil index => exact ⟨[], rfl, .nil⟩
  | cons ht _ ih =>
    obtain ⟨p, rfl, hp⟩ := ih
    exact ⟨_ :: p, rfl, .cons (Template.ofFields_eq_ok.mp ht) hp⟩

theorem length_expansions (model : Model) (c : Cursor Numeral) (ts : List Template) :
    (expansions model c ts).length = ts.length := by
  induction ts generalizing c with
  | nil => rfl
  | cons t ts ih => exact congrArg (· + 1) (ih _)

/-- Whatever compiles is a list of named values, and its rows are those of its blocks. -/
theorem exists_blocks {templates name : Value} {actions : List InputAction}
    (h : (compileInputActions templates name).outcome = .ok actions) :
    ∃ model p ts, Model.ofValue name = .ok model ∧
      templateItems templates = .ok (p.map Value.dict) ∧
      List.Forall₂ Template.Describes p ts ∧ (∀ e ∈ expansions model (.start model) ts, e.Fits) ∧
      blocks model p = (expansions model (.start model) ts).map Expansion.actions ∧
      actions = (blocks model p).flatten := by
  obtain ⟨model, vs, ts, hmodel, hvs, hts, hfits, rfl⟩ := compileInputActions_eq_ok.mp h
  obtain ⟨p, rfl, hp⟩ := hts.fields
  have hblocks : blocks model p = (expansions model (.start model) ts).map Expansion.actions := by
    rw [blocks, compileTemplates, Compilation.run_of_checks hts hfits]
  refine ⟨model, p, ts, hmodel, hvs, hp, hfits, hblocks, ?_⟩
  rw [hblocks, List.flatMap_def]

/-- Templates compile alike in every container that they can be given in. -/
theorem outcome_eq_compiled {templates : Value} {p : List Entries} (name : Value)
    (h : templateItems templates = .ok (p.map Value.dict)) :
    (compileInputActions templates name).outcome = compiled name p := by
  rw [compiled, compileInputActions_outcome, compileInputActions_outcome, h]
  rfl

/-- Fields that describe templates are well-formed ones wherever the first one stands. -/
theorem checks_of_describes {p : List Entries} {ts : List Template}
    (hp : List.Forall₂ Template.Describes p ts) (index : Nat) :
    Checks index (p.map Value.dict) ts := by
  rw [checks_iff, List.forall₂_map_left_iff]
  exact hp.imp fun fields t ht => ⟨fields, rfl, ht⟩

/-- Fields that describe templates whose rows fit compile to these rows. -/
theorem compiled_of_describes {model : Model} {name : Value} {p : List Entries} {ts : List Template}
    (hmodel : Model.ofValue name = .ok model) (hp : List.Forall₂ Template.Describes p ts)
    (hfits : ∀ e ∈ expansions model (.start model) ts, e.Fits) :
    compiled name p = .ok ((expansions model (.start model) ts).flatMap Expansion.actions) :=
  compileInputActions_eq_ok.mpr
    ⟨model, _, ts, hmodel, rfl, checks_of_describes hp 0, hfits, rfl⟩

end Commissioning

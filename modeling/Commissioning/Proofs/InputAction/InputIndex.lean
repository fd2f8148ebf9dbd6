import Commissioning.Proofs.InputAction.Expansion
import Commissioning.Proofs.InputAction.RowFormat

/-!
The input of a compiled row, seen from both ends. A template uses its own input, its own pair, or
the input after those of the template before; its rows carry that input as their first octet. The
fields of a row split the octet in two, so only an input below 16 comes back as it was:

    used input n ──▶ first octet n ──▶ input n % 16, options n / 16
-/
namespace Commissioning

/-! ### The inputs that templates use -/

namespace Template

/-- The first input of a template, where `next` is free. -/
def leading (next : Numeral) (t : Template) : Numeral := t.input.getD next

/-- The inputs of a template: a pair if its type needs one, else twice the same. -/
def inputsAt (next : Numeral) (t : Template) : Numeral × Numeral :=
  if t.behaviour.family.isDouble then t.pair (t.leading next) else (t.leading next, t.leading next)

/-- The input that is free after a template. -/
def freeAfter (next : Numeral) (t : Template) : Numeral :=
  .plain (max (t.inputsAt next).1.number (t.inputsAt next).2.number + 1)

end Template

/-- The input of each row of a behaviour that uses the inputs `a` and `b`. -/
def Behaviour.rowInputs (a b : Numeral) : Behaviour → List Numeral
  | dimmerDouble _ => [a, a, a, b, b, b]
  | cover | coverSwitch => [a, a, b, b]
  | dimmerSingle _ => [a, a, a, a]
  | toggleSwitch | onOffSwitch => [a, a]
  | scene _ (some _) | sceneSwitch _ (some _) => [a, a]
  | _ => [a]

/-- The input of each row of templates, where `next` is free for the first one. -/
def usedInputs (next : Numeral) : List Template → List Numeral
  | [] => []
  | t :: ts =>
    t.behaviour.rowInputs (t.inputsAt next).1 (t.inputsAt next).2 ++
      usedInputs (t.freeAfter next) ts

theorem Behaviour.actions_inputs (a b endpoint : Numeral) (group : Int) (x : Behaviour) :
    (x.actions a b endpoint group).map InputAction.input = x.rowInputs a b := by
  cases x
  case scene primary secondary => cases secondary <;> rfl
  case sceneSwitch primary secondary => cases secondary <;> rfl
  all_goals rfl

namespace Template
variable (model : Model) {c : Cursor Numeral} {next : Numeral} (t : Template)

/-- A cursor that stands on one input is placed at the inputs of a template. -/
theorem place_inputs (hc : c.inputs = .one next) :
    (c.place model t).inputs.first = (t.inputsAt next).1 ∧
      (c.place model t).inputs.second = (t.inputsAt next).2 ∧
      (t.after model c).inputs = .one (t.freeAfter next) := by
  have hplace : (c.place model t).inputs = if t.behaviour.family.isDouble then
      .several [(t.pair (t.leading next)).1, (t.pair (t.leading next)).2]
      else .one (t.leading next) := by
    unfold Cursor.place leading
    cases t.input with
    | some n => rfl
    | none =>
      rw [hc]
      rfl
  rw [after, Cursor.leave, Cursor.advance, freeAfter, inputsAt, hplace]
  by_cases hdouble : t.behaviour.family.isDouble
  · rw [if_pos hdouble, if_pos hdouble]
    exact ⟨rfl, rfl, rfl⟩
  · rw [if_neg hdouble, if_neg hdouble, Int.max_self]
    exact ⟨rfl, rfl, rfl⟩

end Template

/-- The rows of templates have the inputs that the templates use. -/
theorem expansions_inputs {model : Model} {ts : List Template} {c : Cursor Numeral} {next : Numeral}
    (hc : c.inputs = .one next) :
    ((expansions model c ts).flatMap Expansion.actions).map InputAction.input =
      usedInputs next ts := by
  induction ts generalizing c next with
  | nil => rfl
  | cons t ts ih =>
    obtain ⟨hfirst, hsecond, hafter⟩ := t.place_inputs model hc
    have hhead : (t.expansion model c).actions.map InputAction.input =
        t.behaviour.rowInputs (t.inputsAt next).1 (t.inputsAt next).2 := by
      rw [Template.expansion, Cursor.actions, Behaviour.actions_inputs, hfirst, hsecond]
    rw [expansions, List.flatMap_cons, List.map_append, hhead, ih hafter, usedInputs]

/-! ### Compiled rows taken apart -/

/-- The clusters that rows are compiled for have two octets. -/
theorem Behaviour.actions_cluster {a b endpoint : Numeral} {group : Int} {x : Behaviour} :
    ∀ r ∈ x.actions a b endpoint group, 0 ≤ r.cluster ∧ r.cluster ≤ 65535 := by
  have hall : (x.actions a b endpoint group).all
      (fun r => 0 ≤ r.cluster ∧ r.cluster ≤ 65535) = true := by
    cases x
    case scene primary secondary => cases secondary <;> rfl
    case sceneSwitch primary secondary => cases secondary <;> rfl
    all_goals rfl
  intro r hr
  exact of_decide_eq_true (List.all_eq_true.mp hall r hr)

theorem rowFits_iff {row : List Int} : rowFits row ↔ ∀ n ∈ row, IsOctet n := by
  simp [rowFits, IsOctet]

/-- A row has the same octets as a value. -/
theorem InputAction.toOctets_toValue (a : InputAction) : a.toValue.toOctets = a.octets := by
  have hnumber (n : Numeral) : n.toValue.toOctet = Value.octetOfInt n.number := by
    cases n <;> rfl
  rw [toValue, Value.toOctets, octets, row, List.mapM_map, List.mapM_map]
  congr 1
  funext n
  exact hnumber n

namespace DecodedAction

/-- The fields of a row name the input of an action, and no options. -/
def NamesInput (d : DecodedAction) (a : InputAction) : Prop :=
  (d.input : Int) = a.input.number ∧ d.options = 0

theorem input_lt_of_ofOctets {bs : List UInt8} {d : DecodedAction} (h : ofOctets bs = .ok d) :
    d.input < 16 := by
  rcases row_cases bs with ⟨first, transition, endpoint, low, high, command, payload, rfl⟩ | hs
  · cases h
    exact Nat.mod_lt _ (by decide)
  · rw [ofOctets_of_short hs] at h
    cases h

/-- A row that fits shows its action; it names the input exactly if that is below 16. -/
theorem ofValue_toValue {a : InputAction} (hfits : rowFits a.row)
    (hcluster : 0 ≤ a.cluster ∧ a.cluster ≤ 65535) :
    ∃ d, ofValue a.toValue = .ok d ∧ d.Shows a ∧ (d.NamesInput a ↔ a.input.number < 16) := by
  obtain ⟨bs, hbs⟩ := exists_octets (rowFits_iff.mp hfits)
  have hoctets : a.octets = .ok bs := InputAction.octets_eq_ok.mpr hbs
  obtain ⟨d, hd, hshows⟩ := ofOctets_octets hcluster hoctets
  have hvalue : ofValue a.toValue = .ok d :=
    (ofValue_of_octets (a.toOctets_toValue.trans hoctets)).trans hd
  have hinput := hshows.input
  have hsmall := input_lt_of_ofOctets hd
  refine ⟨d, hvalue, hshows, ?_⟩
  unfold NamesInput
  omega

/-- If every row of a table can be taken apart, then each of them gives one item, in order. -/
theorem ofRowsFrom_toValue {P : DecodedAction → InputAction → Prop} {actions : List InputAction}
    (h : ∀ a ∈ actions, ∃ d, ofValue a.toValue = .ok d ∧ P d a) (index : Nat) :
    ∃ ds, (ofRowsFrom index (actions.map InputAction.toValue)).outcome = .ok ds ∧
      List.Forall₂ P ds actions := by
  induction actions generalizing index with
  | nil => exact ⟨[], rfl, .nil⟩
  | cons a actions ih =>
    obtain ⟨⟨d, hd, hP⟩, hrest⟩ := List.forall_mem_cons.mp h
    obtain ⟨ds, hds, hforall⟩ := ih hrest (index + 1)
    refine ⟨d :: ds, ?_, .cons hP hforall⟩
    rw [List.map_cons, ofRowsFrom, hd]
    exact Logged.bind_outcome_eq_ok.mpr ⟨ds, hds, rfl⟩

/-- Compiled rows are taken apart one by one, in order. Each shows the row it was compiled to, whose
input is the one that its template used, and names that input exactly if it is below 16. -/
theorem compiled_rows_shown {templates name : Value} {actions : List InputAction}
    (h : (compileInputActions templates name).outcome = .ok actions) :
    ∃ vs ts ds, templateItems templates = .ok vs ∧ Checks 0 vs ts ∧
      actions.map InputAction.input = usedInputs (.plain 0) ts ∧
      (ofTable (.list (actions.map InputAction.toValue))).outcome = .ok ds ∧
      List.Forall₂ (fun d a => d.Shows a ∧ (d.NamesInput a ↔ a.input.number < 16)) ds actions := by
  obtain ⟨model, vs, ts, -, hvs, hts, hfits, rfl⟩ := compileInputActions_eq_ok.mp h
  have hrow : ∀ a ∈ (expansions model (.start model) ts).flatMap Expansion.actions,
      ∃ d, ofValue a.toValue = .ok d ∧ d.Shows a ∧ (d.NamesInput a ↔ a.input.number < 16) := by
    intro a ha
    obtain ⟨e, he, hae⟩ := List.mem_flatMap.mp ha
    obtain ⟨c, t, rfl⟩ := exists_of_mem_expansions he
    exact ofValue_toValue (hfits _ he a hae) (Behaviour.actions_cluster a hae)
  obtain ⟨ds, hds, hforall⟩ := ofRowsFrom_toValue hrow 0
  refine ⟨vs, ts, ds, hvs, hts, expansions_inputs rfl, ?_, hforall⟩
  exact Logged.bind_outcome_eq_ok.mpr
    ⟨_, rfl, Logged.bind_outcome_eq_ok.mpr ⟨ds, hds, rfl⟩⟩

/-- A covering on the last input that the fields of a row can name and on the one after it. -/
def sampleCover : Value :=
  .list [.dict [("type", .str "cover"), ("inputs", .list [.int 15, .int 16])]]

/-- The rows of that covering. -/
def sampleRows : List InputAction := Behaviour.cover.actions (.plain 15) (.plain 16) (.plain 2) 0

theorem compiled_rows_shown_cover :
    (compileInputActions sampleCover (.str "J1")).outcome = .ok sampleRows ∧
    ∃ vs ts ds, templateItems sampleCover = .ok vs ∧ Checks 0 vs ts ∧
      sampleRows.map InputAction.input = usedInputs (.plain 0) ts ∧
      (ofTable (.list (sampleRows.map InputAction.toValue))).outcome = .ok ds ∧
      List.Forall₂ (fun d a => d.Shows a ∧ (d.NamesInput a ↔ a.input.number < 16)) ds
        sampleRows := by
  have hrows : (compileInputActions sampleCover (.str "J1")).outcome = .ok sampleRows := rfl
  exact ⟨hrows, compiled_rows_shown hrows⟩

/-- The rows for input 16 are taken apart to input 0 and options 1. -/
theorem input_lost : ¬ ∀ (templates name : Value) (actions : List InputAction),
    (compileInputActions templates name).outcome = .ok actions →
    ∃ ds, (ofTable (.list (actions.map InputAction.toValue))).outcome = .ok ds ∧
      List.Forall₂ (fun d a => d.Shows a ∧ d.NamesInput a) ds actions := by
  intro h
  obtain ⟨ds, hds, hforall⟩ := h sampleCover (.str "J1") sampleRows rfl
  cases hds
  obtain ⟨-, hforall⟩ := List.forall₂_cons.mp hforall
  obtain ⟨-, hforall⟩ := List.forall₂_cons.mp hforall
  obtain ⟨⟨-, hnames⟩, -⟩ := List.forall₂_cons.mp hforall
  exact absurd hnames.2 (by decide)

end DecodedAction

end Commissioning

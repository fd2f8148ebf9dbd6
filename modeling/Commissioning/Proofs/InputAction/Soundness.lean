import Commissioning.Proofs.DeviceSetup.Checks
import Commissioning.Proofs.InputAction.Composition

/-!
Compiling is safe. Whatever stands in templates, compiling them either refuses them as templates or
gives rows that the rest of the program takes as they are: a row has one of three lengths, holds
octets only, and passes the check that rows of a caller have to pass.

    any fields ──compile──┬── refused: an error of templates, if it can be shown
                          └── rows ──┬── checkRaw ──▶ accepted
                                     └── octets ────▶ written

What a row looks like is fixed by the behaviour that made it, and whether its numbers fit is asked
for each row, so both come from one row at a time.
-/
namespace Commissioning

/-! ### Rows that behaviours make -/

/-- The clusters that commands of rows belong to. -/
def rowClusters : List Int := [InputAction.onOffCluster, InputAction.levelCluster,
  InputAction.scenesCluster, InputAction.coveringCluster]

namespace InputAction

/-- What does not depend on the inputs, endpoints and fields of templates in a row. -/
structure Shaped (a : InputAction) : Prop where
  payload : a.payload.length = 0 ∨ a.payload.length = 2 ∨ a.payload.length = 3
  transition : a.transition / 16 % 4 = 0 ∧ a.transition % 4 ≠ 0
  cluster : a.cluster ∈ rowClusters

theorem row_length (a : InputAction) : a.row.length = 6 + a.payload.length := by
  rw [row_eq, List.length_append, List.length_map]
  rfl

/-- A row that fits can be written. -/
theorem exists_octets_of_fits {a : InputAction} (hfits : rowFits a.row) :
    ∃ bs, a.octets = .ok bs := by
  obtain ⟨bs, hbs⟩ := exists_octets (rowFits_iff.mp hfits)
  exact ⟨bs, octets_eq_ok.mpr hbs⟩

end InputAction

/-- Only the payload of a row holds what a template chooses, and its length is fixed. -/
theorem Behaviour.actions_shaped {a b endpoint : Numeral} {group : Int} {x : Behaviour} :
    ∀ r ∈ x.actions a b endpoint group, r.Shaped := by
  have hall : (x.actions a b endpoint group).all (fun r =>
      (r.payload.length = 0 ∨ r.payload.length = 2 ∨ r.payload.length = 3) ∧
      (r.transition / 16 % 4 = 0 ∧ r.transition % 4 ≠ 0) ∧ r.cluster ∈ rowClusters) = true := by
    cases x
    case scene primary secondary => cases secondary <;> rfl
    case sceneSwitch primary secondary => cases secondary <;> rfl
    all_goals rfl
  intro r hr
  obtain ⟨hpayload, htransition, hcluster⟩ := of_decide_eq_true (List.all_eq_true.mp hall r hr)
  exact ⟨hpayload, htransition, hcluster⟩

/-- Every row that is compiled has the shape of its behaviour and fits. -/
theorem compiled_rows {templates name : Value} {actions : List InputAction}
    (h : (compileInputActions templates name).outcome = .ok actions) :
    ∀ a ∈ actions, a.Shaped ∧ rowFits a.row := by
  obtain ⟨model, vs, ts, -, -, -, hfits, rfl⟩ := compileInputActions_eq_ok.mp h
  intro a ha
  obtain ⟨e, he, hae⟩ := List.mem_flatMap.mp ha
  obtain ⟨c, t, rfl⟩ := exists_of_mem_expansions he
  exact ⟨Behaviour.actions_shaped a hae, hfits _ he a hae⟩

/-! ### Rows as raw payloads -/

namespace DeviceSetup

end DeviceSetup

/-! ### Refusals -/

/-- The name that a caller gives, or nothing. -/
def Model.asked (name : Option String) : Value := name.elim .null .str

/-- The last case is met: a type that is an integer beyond the limit is refused without being shown. -/
theorem compileOne_unwritable {k : Nat} (hk : Number.digitLimit ≤ k) (model : Model) (index : Nat)
    (c : Cursor Numeral) : compileOne model index c (.dict [("type", .int (10 ^ k : Nat))]) =
      .error (.mismatch .unwritable) := by
  have hhidden : (Value.int (10 ^ k : Nat)).isShowable = false := Number.not_isWritable_power hk
  generalize ((10 ^ k : Nat) : Int) = n at hhidden ⊢
  let e : TemplateError := .unknownType (.int n) index (Family.all.map Family.name)
  have hfields : Template.ofFields index [("type", .int n)] = .error e := rfl
  have hraised : (Fault.template e).raised = .mismatch .unwritable :=
    Fault.raised_of_not_isShowable hhidden
  rw [compileOne, hfields]
  exact congrArg Except.error hraised

end Commissioning

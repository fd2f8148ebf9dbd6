import Commissioning.Proofs.InputAction.Allocation
import Commissioning.Proofs.InputAction.Fields

/-!
Endpoints of coverings on the control unit. Those for coverings begin at 5, and a covering that would
send from a lower one is moved up by 4:

    endpoint    0   1   2   3   4   5   6   …
    covering    4   5   6   7   8   5   6   …

The cursor starts at 1 and only goes up from where a template has put it, so it never stands at 0 when
a template takes its endpoint from it. Only a template that asks for endpoint 0 gets a covering below
5.
-/
namespace Commissioning
open InputAction

/-- A command for a covering is sent from an endpoint for coverings. -/
def InputAction.CoversFromOwn (a : InputAction) : Prop :=
  a.cluster = coveringCluster → Model.firstCoverEndpoint ≤ a.endpoint.number

/-- Fields that ask for a covering. -/
def Template.AsksCovering (fields : Entries) : Prop := ∃ f ∈ family? fields, f.isCover

/-- Fields that ask for endpoint 0. -/
def Template.AsksZero (fields : Entries) : Prop := ∃ n ∈ number? fields "endpoint", n.number = 0

/-! ### One template -/

/-- Rows command coverings exactly if their behaviour drives one. -/
theorem Behaviour.actions_covering {a b endpoint : Numeral} {group : Int} {x : Behaviour} :
    ∀ r ∈ x.actions a b endpoint group, r.cluster = coveringCluster ↔ x.family.isCover := by
  have hall : (x.actions a b endpoint group).all
      (fun r => decide (r.cluster = coveringCluster) == x.family.isCover) = true := by
    cases x with
    | scene primary secondary | sceneSwitch primary secondary => cases secondary <;> rfl
    | _ => rfl
  intro r hr
  rw [← eq_of_beq (List.all_eq_true.mp hall r hr), decide_eq_true_iff]

/-- Moved up, every endpoint but 0 is one for coverings. -/
theorem Family.firstCoverEndpoint_le {f : Family} {free : Int} (hcover : f.isCover)
    (hfree : 0 ≤ free) : Model.firstCoverEndpoint ≤ f.endpointFrom .c4 free ↔ free ≠ 0 := by
  unfold endpointFrom Model.firstCoverEndpoint Model.coverOffset
  simp only [hcover, true_and]
  split <;> omega

namespace Template
variable {c : Cursor Numeral} {t : Template}

theorem place_endpoint (model : Model) (c : Cursor Numeral) (t : Template) :
    (c.place model t).endpoint.number =
      t.family.endpointFrom model (t.endpoint.getD c.endpoint).number :=
  Model.coverEndpoint_number model t.family _

/-- Past endpoint 0 a template takes an endpoint, and not 0 unless it asks for it. -/
theorem taken_endpoint (hc : 0 < c.endpoint.number) (ht : ∀ n ∈ t.endpoint, 0 ≤ n.number) :
    0 ≤ (t.endpoint.getD c.endpoint).number ∧
      ((t.endpoint.getD c.endpoint).number ≠ 0 ↔ ¬ ∃ n ∈ t.endpoint, n.number = 0) := by
  cases h : t.endpoint with
  | none =>
    simp only [Option.getD_none, Option.not_mem_none, false_and, exists_false, not_false_eq_true,
      iff_true]
    omega
  | some n => simpa using ht n h

/-- Past endpoint 0 a template gives coverings endpoints of their own unless it asks for 0. -/
theorem expansion_covers (hc : 0 < c.endpoint.number) (ht : ∀ n ∈ t.endpoint, 0 ≤ n.number) :
    (∀ a ∈ (t.expansion .c4 c).actions, a.CoversFromOwn) ↔
      (t.family.isCover → ¬ ∃ n ∈ t.endpoint, n.number = 0) := by
  have hendpoint : ∀ a ∈ (t.expansion .c4 c).actions, a.endpoint.number =
      t.family.endpointFrom .c4 (t.endpoint.getD c.endpoint).number := by
    intro a ha
    rw [Behaviour.actions_endpoint a ha, place_endpoint]
  have hcovering : ∀ a ∈ (t.expansion .c4 c).actions, a.cluster = coveringCluster ↔
      t.family.isCover := Behaviour.actions_covering
  obtain ⟨hfree, hzero_iff⟩ := taken_endpoint hc ht
  have hasks (hcover : t.family.isCover) :=
    (Family.firstCoverEndpoint_le hcover hfree).trans hzero_iff
  constructor
  · intro hall hcover
    obtain ⟨a, ha, -⟩ : ∃ a ∈ (t.expansion .c4 c).actions, a.input.number = _ :=
      Behaviour.exists_action_input.mpr (.inl rfl)
    have hown := hall a ha ((hcovering a ha).mpr hcover)
    rw [hendpoint a ha] at hown
    exact (hasks hcover).mp hown
  · intro hzero a ha hcluster
    have hcover := (hcovering a ha).mp hcluster
    rw [hendpoint a ha]
    exact (hasks hcover).mpr (hzero hcover)

/-- After a template the cursor is past endpoint 0. -/
theorem after_endpoint (model : Model) (hc : 0 < c.endpoint.number)
    (ht : ∀ n ∈ t.endpoint, 0 ≤ n.number) : 0 < (t.after model c).endpoint.number := by
  have hfree := (taken_endpoint hc ht).1
  have hle := t.family.le_endpointFrom model (t.endpoint.getD c.endpoint).number
  change 0 < (c.place model t).endpoint.number + 1
  rw [place_endpoint]
  omega

end Template

/-! ### All templates -/

/-- Past endpoint 0 templates give coverings endpoints of their own unless one of them asks for
endpoint 0 for a covering. -/
theorem expansions_cover {ts : List Template} {c : Cursor Numeral} (hc : 0 < c.endpoint.number)
    (hts : ∀ t ∈ ts, ∀ n ∈ t.endpoint, 0 ≤ n.number) :
    (∀ a ∈ (expansions .c4 c ts).flatMap Expansion.actions, a.CoversFromOwn) ↔
      ∀ t ∈ ts, t.family.isCover → ¬ ∃ n ∈ t.endpoint, n.number = 0 := by
  induction ts generalizing c with
  | nil => exact iff_of_true (List.forall_mem_nil _) (List.forall_mem_nil _)
  | cons t ts ih =>
    obtain ⟨ht, hts⟩ := List.forall_mem_cons.mp hts
    rw [expansions, List.flatMap_cons, List.forall_mem_append, List.forall_mem_cons,
      Template.expansion_covers hc ht, ih (Template.after_endpoint .c4 hc ht) hts]

theorem Cursor.start_endpoint (model : Model) : 0 < (Cursor.start model).endpoint.number := by
  cases model <;> decide

namespace Template
variable {fields : Entries} {t : Template}

theorem Describes.endpoint_nonneg (h : Describes fields t) : ∀ n ∈ t.endpoint, 0 ≤ n.number := by
  obtain ⟨-, -, -, hendpoint⟩ := h.reads
  intro n hn
  exact (h.1.range (by decide : ("endpoint", 255) ∈ numberFields) n (hendpoint ▸ hn)).1

/-- A template asks for endpoint 0 for a covering exactly if its fields do. -/
theorem Describes.covers_iff (h : Describes fields t) :
    (t.family.isCover → ¬ ∃ n ∈ t.endpoint, n.number = 0) ↔
      (AsksCovering fields → ¬ AsksZero fields) := by
  obtain ⟨hfamily, -, -, hendpoint⟩ := h.reads
  unfold AsksCovering AsksZero
  rw [hfamily, hendpoint]
  simp [family]

end Template

/-- On the control unit every row for a covering is sent from an endpoint for coverings, unless the
template of a covering asks for endpoint 0. -/
theorem cover_endpoints {templates : Value} {actions : List InputAction}
    (h : (compileInputActions templates (.str "C4")).outcome = .ok actions) :
    (∀ a ∈ actions, a.cluster = coveringCluster → Model.firstCoverEndpoint ≤ a.endpoint.number) ↔
      ∀ vs, templateItems templates = .ok vs → ∀ fields, .dict fields ∈ vs →
        Template.AsksCovering fields → ¬ Template.AsksZero fields := by
  obtain ⟨model, vs, ts, hmodel, hvs, hts, -, rfl⟩ := compileInputActions_eq_ok.mp h
  cases hmodel
  have hnonneg : ∀ t ∈ ts, ∀ n ∈ t.endpoint, 0 ≤ n.number :=
    hts.forall fun _ _ ht => ht.endpoint_nonneg
  refine (expansions_cover (Cursor.start_endpoint .c4) hnonneg).trans ?_
  rw [hts.forall_iff fun _ _ ht => ht.covers_iff]
  constructor
  · rintro h _ hvs'
    cases hvs.symm.trans hvs'
    exact h
  · exact fun h => h vs hvs

/-- A switch and two coverings, the second one at an endpoint for switches. -/
def coverTemplates : List Value :=
  [.dict [("type", .str "toggle")], .dict [("type", .str "cover")],
    .dict [("type", .str "cover_down"), ("endpoint", .int 4)]]

/-- Their rows: both coverings are moved up. -/
def coverRows : List InputAction :=
  Behaviour.toggle.actions (.plain 0) (.plain 0) (.plain 1) 0 ++
    Behaviour.cover.actions (.plain 1) (.plain 2) (.plain 6) 0 ++
    Behaviour.coverDown.actions (.plain 3) (.plain 3) (.plain 8) 0

theorem cover_endpoints_moved :
    (compileInputActions (.list coverTemplates) (.str "C4")).outcome = .ok coverRows ∧
    ∀ a ∈ coverRows, a.cluster = coveringCluster → Model.firstCoverEndpoint ≤ a.endpoint.number := by
  have hrows : (compileInputActions (.list coverTemplates) (.str "C4")).outcome = .ok coverRows := rfl
  refine ⟨hrows, (cover_endpoints hrows).mpr ?_⟩
  rintro vs hvs fields hfields - ⟨n, hn, hzero⟩
  cases hvs
  simp only [coverTemplates, List.mem_cons, Value.dict.injEq, List.not_mem_nil, or_false] at hfields
  rcases hfields with rfl | rfl | rfl
  · cases hn
  · cases hn
  · cases hn
    exact absurd hzero (by decide)

/-- The covering of a template that asks for endpoint 0 is sent from endpoint 4. -/
theorem cover_at_switch : ¬ ∀ (templates : Value) (actions : List InputAction),
    (compileInputActions templates (.str "C4")).outcome = .ok actions → ∀ a ∈ actions,
      a.cluster = coveringCluster → Model.firstCoverEndpoint ≤ a.endpoint.number := by
  intro h
  have hrow := h (.list [.dict [("type", .str "cover_up"), ("endpoint", .int 0)]])
    (Behaviour.coverUp.actions (.plain 0) (.plain 0) (.plain 4) 0) rfl _ (List.mem_cons_self ..) rfl
  exact absurd hrow (by decide)

end Commissioning

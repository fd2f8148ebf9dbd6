import Commissioning.Proofs.InputAction.Fields
import Commissioning.Proofs.InputAction.InputIndex
import Mathlib.Algebra.GroupWithZero.Nat
import Mathlib.Data.List.Nodup
import Mathlib.Data.Prod.Basic

/-!
Places of templates that name none. Each takes the inputs after those of the templates before it and
an endpoint past theirs, so no two of them share an input, and no two rows a trigger:

    width       1     2       1           …
    inputs      0     1, 2    3           …   255
    endpoint    e     e + 1   e + 2       …   255

Coverings of the control unit pass over its endpoints for switches. Well-formed templates can run out
of inputs and of endpoints, and that is all that can go wrong with them.
-/
namespace Commissioning

/-! ### Places -/

namespace Family

/-- How many inputs a type uses. -/
def width (f : Family) : Nat := if f.isDouble then 2 else 1

/-- The endpoint of a type where `free` is the first one to be had. -/
def endpointFrom (f : Family) (model : Model) (free : Int) : Int :=
  if model = .c4 ∧ f.isCover ∧ free < Model.firstCoverEndpoint then free + Model.coverOffset
  else free

theorem le_endpointFrom (f : Family) (model : Model) (free : Int) :
    free ≤ f.endpointFrom model free := by
  unfold endpointFrom Model.coverOffset
  split <;> omega

end Family

/-- The inputs and the endpoint that a template takes up. -/
structure Place where
  input : Int
  width : Nat
  endpoint : Int

namespace Place

/-- An input is one of a place. -/
def Has (p : Place) (n : Int) : Prop := p.input ≤ n ∧ n < p.input + p.width

/-- A row can hold the inputs and the endpoint of a place. -/
def Fits (p : Place) : Prop := (∀ n, p.Has n → n ≤ 255) ∧ p.endpoint ≤ 255

/-- Rows that use all inputs of a place, and no other ones, and its endpoint. -/
structure Holds (p : Place) (rows : List InputAction) : Prop where
  inputs : ∀ n, (∃ a ∈ rows, a.input.number = n) ↔ p.Has n
  endpoint : ∀ a ∈ rows, a.endpoint.number = p.endpoint

/-- A place with lower inputs and a lower endpoint. -/
structure Before (p q : Place) : Prop where
  inputs : p.input + p.width ≤ q.input
  endpoint : p.endpoint < q.endpoint

end Place

namespace Template

/-- The type of a template. -/
def family (t : Template) : Family := t.behaviour.family

/-- The place of a template that names none, where `input` and `endpoint` are free. -/
def placeAt (model : Model) (input endpoint : Int) (t : Template) : Place where
  input := input
  width := t.family.width
  endpoint := t.family.endpointFrom model endpoint

end Template

/-- The places of templates that name none, where `input` and `endpoint` are free. -/
def placesFrom (model : Model) (input endpoint : Int) : List Template → List Place
  | [] => []
  | t :: ts =>
    let p := t.placeAt model input endpoint
    p :: placesFrom model (input + p.width) (p.endpoint + 1) ts

/-- The places of templates that name none. -/
def places (model : Model) (ts : List Template) : List Place :=
  placesFrom model 0 model.startingEndpoint ts

section
variable (model : Model) (input endpoint : Int) (ts : List Template)

theorem le_of_mem_placesFrom :
    ∀ p ∈ placesFrom model input endpoint ts, input ≤ p.input ∧ endpoint ≤ p.endpoint := by
  induction ts generalizing input endpoint with
  | nil => exact List.forall_mem_nil _
  | cons t ts ih =>
    have hfree := t.family.le_endpointFrom model endpoint
    refine List.forall_mem_cons.mpr ⟨⟨Int.le_refl _, hfree⟩, fun p hp => ?_⟩
    obtain ⟨hinput, hendpoint⟩ := ih _ _ p hp
    dsimp only [Template.placeAt] at hinput hendpoint
    omega

theorem placesFrom_pairwise : (placesFrom model input endpoint ts).Pairwise Place.Before := by
  induction ts generalizing input endpoint with
  | nil => exact .nil
  | cons t ts ih =>
    refine .cons (fun p hp => ?_) (ih _ _)
    obtain ⟨hinput, hendpoint⟩ := le_of_mem_placesFrom _ _ _ _ p hp
    exact ⟨hinput, by omega⟩

theorem placesFrom_widths : (placesFrom model input endpoint ts).map Place.width =
    ts.map fun t => t.family.width := by
  induction ts generalizing input endpoint with
  | nil => rfl
  | cons t ts ih =>
    rw [placesFrom, List.map_cons, List.map_cons, ih]
    rfl

/-- The inputs of a place begin where those of all places before it end. -/
theorem placesFrom_input (k : Nat) (p : Place)
    (h : (placesFrom model input endpoint ts)[k]? = some p) :
    p.input = input + ((ts.take k).map fun t => t.family.width).sum := by
  induction ts generalizing input endpoint k with
  | nil => simp [placesFrom] at h
  | cons t ts ih =>
    cases k with
    | zero =>
      cases h
      simp [Template.placeAt]
    | succ k =>
      have hp := ih _ _ k h
      rw [hp, List.take_succ_cons, List.map_cons, List.sum_cons]
      simp only [Template.placeAt]
      omega

/-- The endpoint of a place is the first one for its type past that of the place before it. -/
theorem placesFrom_endpoint (k : Nat) (p q : Place) (t : Template)
    (hp : (placesFrom model input endpoint ts)[k]? = some p)
    (hq : (placesFrom model input endpoint ts)[k + 1]? = some q) (ht : ts[k + 1]? = some t) :
    q.endpoint = t.family.endpointFrom model (p.endpoint + 1) := by
  induction ts generalizing input endpoint k with
  | nil => simp [placesFrom] at hp
  | cons u ts ih =>
    cases k with
    | succ k => exact ih _ _ k hp hq ht
    | zero =>
      cases hp
      cases ts with
      | nil => simp at ht
      | cons u' ts =>
        cases ht
        cases hq
        rfl

end

/-! ### Fields of templates -/

/-- An integer that two octets can hold. -/
def IsGroup (n : Int) : Prop := 0 ≤ n ∧ n ≤ 65535

instance (n : Int) : Decidable (IsGroup n) := inferInstanceAs (Decidable (0 ≤ n ∧ n ≤ 65535))

/-- A scene and a group that a row can hold. -/
structure SceneChoice.InRange (s : SceneChoice) : Prop where
  scene : IsOctet s.scene.number
  group : ∀ g ∈ s.group, IsGroup g

/-- What a behaviour has from its template fits the rows. -/
def Behaviour.InRange : Behaviour → Prop
  | dimmerSingle d | dimmerDouble d => IsOctet d.up ∧ IsOctet d.down ∧ IsOctet d.rate.number
  | scene primary secondary | sceneSwitch primary secondary =>
    primary.InRange ∧ ∀ s ∈ secondary, s.InRange
  | _ => True

namespace Template
variable {fields : Entries}

theorem dimmingOf_range {rate : Option Numeral} (h : ∀ n ∈ rate, IsOctet n.number) :
    IsOctet (dimmingOf fields rate).up ∧ IsOctet (dimmingOf fields rate).down ∧
      IsOctet (dimmingOf fields rate).rate.number := by
  have hcommand (never : Bool) : IsOctet (if never then moveCommand else moveWithOnOffCommand) := by
    cases never
    · decide
    · decide
  have hdefault : IsOctet defaultRate := by decide
  refine ⟨hcommand _, hcommand _, ?_⟩
  unfold dimmingOf
  cases rate with
  | none => exact hdefault
  | some n =>
    dsimp only
    split
    · exact hdefault
    · exact h n rfl

/-- Scenes of well-formed fields fit, whichever keys they stand under. -/
theorem scene?_inRange {scene group : String} (h : WellFormed fields)
    (hscene : (scene, 255) ∈ numberFields) (hgroup : (group, 65535) ∈ numberFields) :
    ∀ s ∈ scene? fields scene group, s.InRange := by
  intro s hs
  obtain ⟨n, hn, rfl⟩ := Option.map_eq_some_iff.mp hs
  refine ⟨h.range hscene n hn, fun g hg => ?_⟩
  obtain ⟨m, hm, rfl⟩ := Option.map_eq_some_iff.mp hg
  exact h.range hgroup m hm

/-- The behaviour that well-formed fields describe fits. -/
theorem Describes.inRange {t : Template} (h : Describes fields t) : t.behaviour.InRange := by
  have hread := h.readFrom
  cases hx : t.behaviour with
  | scene primary secondary | sceneSwitch primary secondary =>
    rw [hx] at hread
    obtain ⟨hprimary, rfl⟩ := hread
    exact ⟨scene?_inRange h.1 (by decide) (by decide) primary hprimary,
      scene?_inRange h.1 (by decide) (by decide)⟩
  | dimmerSingle dimming | dimmerDouble dimming =>
    rw [hx] at hread
    obtain rfl := hread
    exact dimmingOf_range (h.1.range (by decide))
  | _ => trivial

end Template

/-! ### Rows of a behaviour -/

namespace InputAction

/-- What makes a device follow a row: an input and a transition of it. -/
def trigger (a : InputAction) : Int × Int := (a.input.number, a.transition)

/-- A row fits but for its input and its endpoint. -/
@[mk_iff]
structure OwnFits (a : InputAction) : Prop where
  transition : IsOctet a.transition
  command : IsOctet a.command
  payload : ∀ n ∈ a.payload, IsOctet n.number

instance (a : InputAction) : Decidable a.OwnFits := decidable_of_iff' _ (ownFits_iff a)

variable {input endpoint : Numeral} {transition command group : Int}

/-- Then the row fits wherever its input and its endpoint do. -/
theorem OwnFits.rowFits_iff {a : InputAction} (h : a.OwnFits)
    (hcluster : 0 ≤ a.cluster ∧ a.cluster ≤ 65535) :
    rowFits a.row ↔ IsOctet a.input.number ∧ IsOctet a.endpoint.number := by
  rw [Commissioning.rowFits_iff]
  constructor
  · intro hrow
    have hinput : a.input.number ∈ a.row := by simp [row_eq]
    have hendpoint : a.endpoint.number ∈ a.row := by simp [row_eq]
    exact ⟨hrow _ hinput, hrow _ hendpoint⟩
  · rintro ⟨hinput, hendpoint⟩
    exact Fits.row ⟨hinput, h.transition, hendpoint, hcluster, h.command, h.payload⟩

theorem ownFits_plain {cluster : Int} (ht : IsOctet transition) (hc : IsOctet command) :
    OwnFits ⟨input, transition, endpoint, cluster, command, []⟩ :=
  ⟨ht, hc, List.forall_mem_nil _⟩

theorem ownFits_move {direction : Int} {rate : Numeral} (ht : IsOctet transition)
    (hc : IsOctet command) (hd : IsOctet direction) (hr : IsOctet rate.number) :
    OwnFits (level input transition endpoint command [direction, rate]) :=
  ⟨ht, hc, List.forall_mem_cons.mpr ⟨hd, List.forall_mem_singleton.mpr hr⟩⟩

/-- A group takes two octets of a row. -/
theorem ownFits_recallScene {scene : Numeral} (ht : IsOctet transition) (hg : IsGroup group)
    (hs : IsOctet scene.number) :
    OwnFits (recallScene input transition endpoint group scene) := by
  have hlow : IsOctet (group % 256) := by unfold IsOctet; omega
  have hhigh : IsOctet (group / 256) := by
    unfold IsGroup at hg
    unfold IsOctet
    omega
  have hcommand : IsOctet recallCommand := by decide
  exact ⟨ht, hcommand, List.forall_mem_cons.mpr
    ⟨hlow, List.forall_mem_cons.mpr ⟨hhigh, List.forall_mem_singleton.mpr hs⟩⟩⟩

end InputAction

namespace Behaviour
open InputAction Transition
variable {a b endpoint : Numeral} {group : Int} {x : Behaviour}

theorem getD_inRange {s : SceneChoice} (hs : s.InRange) (hg : IsGroup group) :
    IsGroup (s.group.getD group) := by
  cases h : s.group with
  | none => exact hg
  | some g => exact hs.group g h

theorem scenePair_ownFits {first second : Int} {primary : SceneChoice}
    {secondary : Option SceneChoice} (hfirst : IsOctet first) (hsecond : IsOctet second)
    (hp : primary.InRange) (hs : ∀ s ∈ secondary, s.InRange) (hg : IsGroup group) :
    ∀ r ∈ scenePair a endpoint group first second primary secondary, r.OwnFits := by
  have hgroup := getD_inRange hp hg
  refine List.forall_mem_cons.mpr ⟨ownFits_recallScene hfirst hgroup hp.scene, ?_⟩
  cases secondary with
  | none => exact List.forall_mem_nil _
  | some s =>
    have hrange := hs s rfl
    exact List.forall_mem_singleton.mpr
      (ownFits_recallScene hsecond (getD_inRange hrange hgroup) hrange.scene)

/-- With a template that fits, the rows of a behaviour fit but for inputs and endpoint. -/
theorem actions_ownFits (hx : x.InRange) (hg : IsGroup group) :
    ∀ r ∈ x.actions a b endpoint group, r.OwnFits := by
  cases x with
  | dimmerSingle d =>
    obtain ⟨hup, hdown, hrate⟩ := hx
    simp only [actions, List.forall_mem_cons, List.not_mem_nil, false_implies, implies_true,
      and_true]
    refine ⟨ownFits_plain (by decide) (by decide), ?up, ?down, ownFits_plain (by decide) (by decide)⟩
    case up => exact ownFits_move (by decide) hup (by decide) hrate
    case down => exact ownFits_move (by decide) hdown (by decide) hrate
  | dimmerDouble d =>
    obtain ⟨hup, hdown, hrate⟩ := hx
    simp only [actions, List.forall_mem_cons, List.not_mem_nil, false_implies, implies_true,
      and_true]
    refine ⟨ownFits_plain (by decide) (by decide), ?up, ownFits_plain (by decide) (by decide),
      ownFits_plain (by decide) (by decide), ?down, ownFits_plain (by decide) (by decide)⟩
    case up => exact ownFits_move (by decide) hup (by decide) hrate
    case down => exact ownFits_move (by decide) hdown (by decide) hrate
  | scene primary secondary => exact scenePair_ownFits (by decide) (by decide) hx.1 hx.2 hg
  | sceneSwitch primary secondary => exact scenePair_ownFits (by decide) (by decide) hx.1 hx.2 hg
  | _ => exact List.forall_iff_forall_mem.mp (of_decide_eq_true rfl)

theorem groupAfter_range (hx : x.InRange) (hg : IsGroup group) : IsGroup (x.groupAfter group) := by
  cases x with
  | scene primary secondary | sceneSwitch primary secondary =>
    have hgroup := getD_inRange hx.1 hg
    cases secondary with
    | none => exact hgroup
    | some s => exact getD_inRange (hx.2 s rfl) hgroup
  | _ => exact hg

theorem actions_endpoint : ∀ r ∈ x.actions a b endpoint group, r.endpoint = endpoint := by
  have hall : (x.actions a b endpoint group).map InputAction.endpoint =
      List.replicate (x.actions a b endpoint group).length endpoint := by
    cases x with
    | scene primary secondary | sceneSwitch primary secondary => cases secondary <;> rfl
    | _ => rfl
  exact fun r hr => List.eq_of_mem_replicate (hall ▸ List.mem_map_of_mem hr)

/-- A behaviour uses its first input, and the second one if its type needs two. -/
theorem mem_rowInputs {n : Numeral} :
    n ∈ x.rowInputs a b ↔ n = a ∨ x.family.isDouble ∧ n = b := by
  cases x with
  | scene primary secondary | sceneSwitch primary secondary =>
    cases secondary <;> simp [rowInputs, family, Family.isDouble]
  | _ => simp [rowInputs, family, Family.isDouble]

theorem exists_action_input {n : Int} : (∃ r ∈ x.actions a b endpoint group, r.input.number = n) ↔
    a.number = n ∨ x.family.isDouble ∧ b.number = n := by
  have hinputs := actions_inputs a b endpoint group x
  constructor
  · rintro ⟨r, hr, rfl⟩
    have hmem : r.input ∈ x.rowInputs a b := hinputs ▸ List.mem_map_of_mem hr
    rcases mem_rowInputs.mp hmem with h | ⟨hdouble, h⟩
    · exact .inl (congrArg _ h.symm)
    · exact .inr ⟨hdouble, congrArg _ h.symm⟩
  · intro h
    have hmem : ∃ m ∈ x.rowInputs a b, m.number = n := by
      rcases h with rfl | ⟨hdouble, rfl⟩
      · exact ⟨a, mem_rowInputs.mpr (.inl rfl), rfl⟩
      · exact ⟨b, mem_rowInputs.mpr (.inr ⟨hdouble, rfl⟩), rfl⟩
    obtain ⟨m, hm, rfl⟩ := hmem
    obtain ⟨r, hr, rfl⟩ := List.mem_map.mp (hinputs.symm ▸ hm)
    exact ⟨r, hr, rfl⟩

/-- The transitions of each input of a behaviour. -/
def transitions : Behaviour → List Int
  | toggle | on | off | coverUp | coverDown => [releasedToPressed]
  | toggleSwitch | onOffSwitch | coverSwitch => [releasedToPressed, anyToReleased]
  | dimmerSingle _ => [pressedToReleased, keptPressedAlternate, keptPressedIsAlternate,
      keptPressedToReleased]
  | dimmerDouble _ => [pressedToReleased, pressedToKeptPressed, keptPressedToReleased]
  | cover => [releasedToPressed, pressedToReleased]
  | scene _ secondary => pressedToReleased :: if secondary.isSome then [pressedToKeptPressed] else []
  | sceneSwitch _ secondary => releasedToPressed :: if secondary.isSome then [anyToReleased] else []

theorem transitions_nodup : x.transitions.Nodup := by
  apply of_decide_eq_true
  cases x with
  | scene primary secondary | sceneSwitch primary secondary => cases secondary <;> rfl
  | _ => rfl

/-- The inputs of a behaviour have the same transitions. -/
theorem actions_trigger : (x.actions a b endpoint group).map trigger =
    x.transitions.map (Prod.mk a.number) ++
      if x.family.isDouble then x.transitions.map (Prod.mk b.number) else [] := by
  cases x with
  | scene primary secondary | sceneSwitch primary secondary => cases secondary <;> rfl
  | _ => rfl

/-- No two rows of a behaviour have one trigger. -/
theorem actions_trigger_nodup (h : x.family.isDouble → a.number ≠ b.number) :
    ((x.actions a b endpoint group).map trigger).Nodup := by
  have hone (n : Int) : (x.transitions.map (Prod.mk n)).Nodup :=
    transitions_nodup.map (Prod.mk_right_injective n)
  rw [actions_trigger]
  split
  · next hdouble =>
    refine (hone _).append (hone _) fun r hr hr' => ?_
    obtain ⟨t, -, rfl⟩ := List.mem_map.mp hr
    obtain ⟨t', -, ht'⟩ := List.mem_map.mp hr'
    exact h hdouble (congrArg Prod.fst ht').symm
  · rw [List.append_nil]
    exact hone _

end Behaviour

/-! ### One template -/

/-- A template that names no place and whose behaviour fits. -/
structure Template.Unplaced (t : Template) : Prop where
  input : t.input = none
  inputs : t.inputs = none
  endpoint : t.endpoint = none
  behaviour : t.behaviour.InRange

/-- A cursor stands where `input` and `endpoint` are free. -/
structure Cursor.Stands (c : Cursor Numeral) (input endpoint : Int) : Prop where
  nonneg : 0 ≤ input ∧ 0 ≤ endpoint
  inputs : ∃ next, c.inputs = .one next ∧ next.number = input
  endpoint : c.endpoint.number = endpoint
  group : IsGroup c.group

theorem Cursor.stands_start (model : Model) :
    (Cursor.start model).Stands 0 model.startingEndpoint where
  nonneg := by cases model <;> decide
  inputs := ⟨.plain 0, rfl, rfl⟩
  endpoint := rfl
  group := (by decide : IsGroup 0)

/-- What a template compiles to uses a place, and it fits exactly if the place does. -/
structure Expansion.Takes (e : Expansion) (p : Place) : Prop where
  holds : p.Holds e.actions
  triggers : (e.actions.map InputAction.trigger).Nodup
  fits : e.Fits ↔ p.Fits

theorem Model.coverEndpoint_number (model : Model) (f : Family) (n : Numeral) :
    (if f.isCover then model.coverEndpoint n else n).number = f.endpointFrom model n.number := by
  unfold coverEndpoint Family.endpointFrom
  by_cases hcover : f.isCover
  · rw [if_pos hcover]
    simp only [hcover, true_and]
    split <;> rfl
  · simp only [hcover, Bool.false_eq_true, false_and, and_false, if_false]

namespace Place
variable {p : Place} {rows : List InputAction}

/-- Rows that fit but for the numbers of their place fit exactly if the place does. -/
theorem Holds.fits_iff (h : p.Holds rows) (hwidth : 0 < p.width) (hinput : 0 ≤ p.input)
    (hendpoint : 0 ≤ p.endpoint)
    (hrows : ∀ a ∈ rows, rowFits a.row ↔ IsOctet a.input.number ∧ IsOctet a.endpoint.number) :
    (∀ a ∈ rows, rowFits a.row) ↔ p.Fits := by
  constructor
  · intro hall
    have hplace : ∀ a ∈ rows, IsOctet a.input.number ∧ IsOctet a.endpoint.number :=
      fun a ha => (hrows a ha).mp (hall a ha)
    constructor
    · intro n hn
      obtain ⟨a, ha, rfl⟩ := (h.inputs n).mpr hn
      exact (hplace a ha).1.2
    · have hfirst : p.Has p.input := by
        unfold Has
        omega
      obtain ⟨a, ha, -⟩ := (h.inputs _).mpr hfirst
      exact h.endpoint a ha ▸ (hplace a ha).2.2
  · rintro ⟨hinputs, hlast⟩ a ha
    have hhas : p.Has a.input.number := (h.inputs _).mp ⟨a, ha, rfl⟩
    have hbelow := hinputs _ hhas
    refine (hrows a ha).mpr ⟨⟨Int.le_trans hinput hhas.1, hbelow⟩, ?_⟩
    rw [h.endpoint a ha]
    exact ⟨hendpoint, hlast⟩

end Place

/-- The rows of a behaviour hold the place that begins with its first input and ends with its second
one; they are one input if its type uses one. -/
theorem Behaviour.actions_hold {x : Behaviour} {a b endpoint : Numeral} {group : Int} {p : Place}
    (hwidth : p.width = x.family.width) (hfirst : a.number = p.input)
    (hlast : b.number = p.input + p.width - 1) (hendpoint : endpoint.number = p.endpoint) :
    p.Holds (x.actions a b endpoint group) := by
  constructor
  · intro n
    have hwidth' : p.width = if x.family.isDouble then 2 else 1 := hwidth
    rw [exists_action_input, Place.Has]
    split at hwidth'
    · next hdouble =>
      simp only [hdouble, true_and]
      omega
    · next hsingle =>
      rw [or_iff_left fun h => hsingle h.1]
      omega
  · intro r hr
    rw [actions_endpoint r hr]
    exact hendpoint

namespace Template
variable {model : Model} {c : Cursor Numeral} {input endpoint : Int} {t : Template}

/-- A template that names no input starts with the one that is free. -/
theorem Unplaced.inputsAt (ht : t.Unplaced) (next : Numeral) : (t.inputsAt next).1 = next ∧
    (t.inputsAt next).2.number = next.number + t.family.width - 1 := by
  have hwidth : t.family.width = if t.behaviour.family.isDouble then 2 else 1 := rfl
  rw [hwidth, Template.inputsAt, leading, pair, ht.input, ht.inputs]
  split
  · refine ⟨rfl, ?_⟩
    change next.number + 1 = next.number + (2 : Nat) - 1
    omega
  · refine ⟨rfl, ?_⟩
    change next.number = next.number + (1 : Nat) - 1
    omega

/-- A template that names no place is put where the cursor stands, and leaves it past that place. -/
theorem Unplaced.step (ht : t.Unplaced) (model : Model) (hc : c.Stands input endpoint) :
    let p := t.placeAt model input endpoint
    (t.expansion model c).Takes p ∧
      (t.after model c).Stands (input + p.width) (p.endpoint + 1) := by
  intro p
  obtain ⟨next, hnext, rfl⟩ := hc.inputs
  obtain ⟨hplaced, hplaced', hafter⟩ := t.place_inputs model hnext
  obtain ⟨hfirst, hlast⟩ := ht.inputsAt next
  have hfirst' : (c.place model t).inputs.first.number = p.input :=
    congrArg Numeral.number (hplaced.trans hfirst)
  have hlast' : (c.place model t).inputs.second.number = p.input + p.width - 1 :=
    (congrArg Numeral.number hplaced').trans hlast
  have hendpoint : (c.place model t).endpoint.number = p.endpoint := by
    refine (Model.coverEndpoint_number model t.family _).trans ?_
    rw [ht.endpoint, Option.getD_none, hc.endpoint]
    rfl
  have hwidth : p.width = if t.behaviour.family.isDouble then 2 else 1 := rfl
  have hpositive : 0 < p.width := by
    rw [hwidth]
    split <;> decide
  obtain ⟨hinput, hfree⟩ := hc.nonneg
  have hnonneg : 0 ≤ p.endpoint := Int.le_trans hfree (t.family.le_endpointFrom model endpoint)
  constructor
  · have hholds : p.Holds (t.expansion model c).actions :=
      Behaviour.actions_hold rfl hfirst' hlast' hendpoint
    refine ⟨hholds, Behaviour.actions_trigger_nodup fun hdouble => ?_, ?_⟩
    · rw [hdouble, if_pos rfl] at hwidth
      omega
    · exact hholds.fits_iff hpositive hinput hnonneg fun r hr =>
        (Behaviour.actions_ownFits ht.behaviour hc.group r hr).rowFits_iff
          (Behaviour.actions_cluster r hr)
  · constructor
    case nonneg => exact ⟨by omega, by omega⟩
    case inputs =>
      refine ⟨_, hafter, ?_⟩
      change max (t.inputsAt next).1.number (t.inputsAt next).2.number + 1 = _
      rw [hfirst, hlast]
      change max next.number (next.number + p.width - 1) + 1 = _
      omega
    case endpoint => exact congrArg (· + 1) hendpoint
    case group => exact Behaviour.groupAfter_range ht.behaviour hc.group

end Template

/-! ### All templates -/

/-- Each template is put past the place of the one before it. -/
theorem expansions_take {model : Model} {ts : List Template} (hts : ∀ t ∈ ts, t.Unplaced)
    {c : Cursor Numeral} {input endpoint : Int} (hc : c.Stands input endpoint) :
    List.Forall₂ Expansion.Takes (expansions model c ts) (placesFrom model input endpoint ts) := by
  induction ts generalizing c input endpoint with
  | nil => exact .nil
  | cons t ts ih =>
    obtain ⟨ht, hts⟩ := List.forall_mem_cons.mp hts
    obtain ⟨hhead, hafter⟩ := ht.step model hc
    exact .cons hhead (ih hts hafter)

theorem expansions_family {model : Model} {ts : List Template} {c : Cursor Numeral} :
    (expansions model c ts).map Expansion.family = ts.map Template.family := by
  induction ts generalizing c with
  | nil => rfl
  | cons t ts ih =>
    rw [expansions, List.map_cons, List.map_cons, ih]
    rfl

/-- Items are related as the ones are that they are related to in turn. -/
theorem pairwise_of_forall₂ {α β : Type} {R : α → β → Prop} {S : β → β → Prop} {T : α → α → Prop}
    {as : List α} {bs : List β} (h : List.Forall₂ R as bs)
    (hT : ∀ a a' b b', R a b → R a' b' → S b b' → T a a') (hbs : bs.Pairwise S) :
    as.Pairwise T := by
  induction h with
  | nil => exact .nil
  | @cons a b as bs hab hrest ih =>
    obtain ⟨hb, hbs⟩ := List.pairwise_cons.mp hbs
    exact .cons (forall_of_forall₂ hrest (fun a' b' => hT a a' b b' hab) hb) (ih hbs)

/-- No input has rows in two expansions. -/
def Expansion.Apart (e e' : Expansion) : Prop :=
  ∀ a ∈ e.actions, ∀ a' ∈ e'.actions, a.input.number ≠ a'.input.number

/-- Rows of places of which one is before the other have no input in common. -/
theorem Place.Holds.apart {p q : Place} {e e' : Expansion} (h : p.Holds e.actions)
    (h' : q.Holds e'.actions) (hpq : p.Before q) : e.Apart e' := by
  intro a ha a' ha' heq
  have hp : p.Has a.input.number := (h.inputs _).mp ⟨a, ha, rfl⟩
  have hq : q.Has a.input.number := (h'.inputs _).mp ⟨a', ha', heq.symm⟩
  have hbefore := hpq.inputs
  unfold Has at hp hq
  omega

/-- Rows of expansions that are apart have different triggers if those of each one have. -/
theorem triggers_nodup {es : List Expansion} (hapart : es.Pairwise Expansion.Apart)
    (hes : ∀ e ∈ es, (e.actions.map InputAction.trigger).Nodup) :
    ((es.flatMap Expansion.actions).map InputAction.trigger).Nodup := by
  rw [List.map_flatMap, List.nodup_flatMap]
  refine ⟨hes, hapart.imp fun hee' r hr hr' => ?_⟩
  obtain ⟨a, ha, rfl⟩ := List.mem_map.mp hr
  obtain ⟨a', ha', heq⟩ := List.mem_map.mp hr'
  exact hee' a ha a' ha' (congrArg Prod.fst heq).symm

/-- The keys of the fields that name a place. -/
def placeKeys : List String := ["input", "inputs", "endpoint"]

/-- No template of a list names a place. -/
def LeavesPlaces (vs : List Value) : Prop :=
  ∀ fields : Entries, .dict fields ∈ vs → ∀ key ∈ placeKeys, fields.get key = .null

theorem Template.unplaced_of_ofFields {index : Nat} {fields : Entries} {t : Template}
    (h : ofFields index fields = .ok t) (hfields : ∀ key ∈ placeKeys, fields.get key = .null) :
    t.Unplaced := by
  have hdescribes := ofFields_eq_ok.mp h
  obtain ⟨-, hinput, hinputs, hendpoint⟩ := hdescribes.reads
  rw [number?, hfields "input" (by decide)] at hinput
  rw [number?, hfields "endpoint" (by decide)] at hendpoint
  rw [pair?, hfields "inputs" (by decide)] at hinputs
  exact ⟨hinput, hinputs, hendpoint, hdescribes.inRange⟩

theorem Checks.unplaced {index : Nat} {vs : List Value} {ts : List Template} (h : Checks index vs ts)
    (hvs : LeavesPlaces vs) : ∀ t ∈ ts, t.Unplaced := by
  induction h with
  | nil index => exact List.forall_mem_nil _
  | @cons index fields t vs ts ht _ ih =>
    have hhead := t.unplaced_of_ofFields ht (hvs fields (List.mem_cons_self ..))
    exact List.forall_mem_cons.mpr
      ⟨hhead, ih fun fields hfields => hvs fields (List.mem_cons_of_mem _ hfields)⟩

/-- How places follow one another: each begins with the input after those of all places before it,
and its endpoint is the first one for its type past that of the place before it. -/
structure Allocation (model : Model) (ts : List Template) (ps : List Place) : Prop where
  widths : ps.map Place.width = ts.map fun t => t.family.width
  inputs : ∀ (k : Nat) (p : Place), ps[k]? = some p →
    p.input = ((ts.take k).map fun t => t.family.width).sum
  endpoints : ∀ k p q t, ps[k]? = some p → ps[k + 1]? = some q → ts[k + 1]? = some t →
    q.endpoint = t.family.endpointFrom model (p.endpoint + 1)
  increasing : ps.Pairwise fun p q => p.endpoint < q.endpoint

theorem places_allocation (model : Model) (ts : List Template) :
    Allocation model ts (places model ts) where
  widths := placesFrom_widths ..
  inputs k p h := by
    rw [placesFrom_input _ _ _ _ k p h, Int.zero_add]
  endpoints := placesFrom_endpoint model 0 model.startingEndpoint ts
  increasing := (placesFrom_pairwise ..).imp Place.Before.endpoint

/-- Templates that name no places are put one after the other, each at inputs of its own and at an
endpoint past the others, so no two rows have one trigger. Well-formed ones compile exactly if all of
their places are within the numbers that a row can hold. -/
theorem compiled_places (templates name : Value)
    (h : ∀ vs, templateItems templates = .ok vs → LeavesPlaces vs) :
    (∀ actions, (compileInputActions templates name).outcome = .ok actions →
      ∃ model vs ts, Model.ofValue name = .ok model ∧ templateItems templates = .ok vs ∧
        Checks 0 vs ts ∧ Allocation model ts (places model ts) ∧
        let done := (compileTemplates model vs).done
        actions = done.flatMap Expansion.actions ∧
        done.map Expansion.family = ts.map Template.family ∧
        List.Forall₂ (fun e p => p.Holds e.actions) done (places model ts) ∧
        done.Pairwise Expansion.Apart ∧
        (actions.map InputAction.trigger).Nodup) ∧
    ∀ model vs ts, Model.ofValue name = .ok model → templateItems templates = .ok vs →
      Checks 0 vs ts →
      ((∃ actions, (compileInputActions templates name).outcome = .ok actions) ↔
        ∀ p ∈ places model ts, p.Fits) := by
  have htake (model : Model) {vs ts} (hvs : templateItems templates = .ok vs) (hts : Checks 0 vs ts) :
      List.Forall₂ Expansion.Takes (expansions model (.start model) ts) (places model ts) :=
    expansions_take (hts.unplaced (h vs hvs)) (Cursor.stands_start model)
  constructor
  · intro actions hactions
    obtain ⟨model, vs, ts, hmodel, hvs, hts, hfits, rfl⟩ := compileInputActions_eq_ok.mp hactions
    have hdone : (compileTemplates model vs).done = expansions model (.start model) ts := by
      rw [compileTemplates, Compilation.run_of_checks hts hfits]
    have hall := htake model hvs hts
    have htriggers := forall_of_forall₂ hall (Q := fun _ => True) (fun _ _ he _ => he.triggers)
      fun _ _ => trivial
    have hapart := pairwise_of_forall₂ hall (fun _ _ _ _ he he' => he.holds.apart he'.holds)
      (placesFrom_pairwise ..)
    refine ⟨model, vs, ts, hmodel, hvs, hts, places_allocation model ts, ?_⟩
    rw [hdone]
    exact ⟨rfl, expansions_family, hall.imp fun _ _ he => he.holds, hapart,
      triggers_nodup hapart htriggers⟩
  · intro model vs ts hmodel hvs hts
    have hall := htake model hvs hts
    rw [exists_compiled_iff hmodel hvs hts]
    exact ⟨forall_of_forall₂ hall.flip fun _ _ he => he.fits.mp,
      forall_of_forall₂ hall fun _ _ he => he.fits.mpr⟩

/-- A switch, a covering and a dimmer that name no places. -/
def mixedTemplates : List Value :=
  [.dict [("type", .str "toggle")], .dict [("type", .str "cover")],
    .dict [("type", .str "dimmer_single")]]

/-- Their rows on a control unit, on which the endpoint of the covering is moved up. -/
def mixedRows : List InputAction :=
  Behaviour.toggle.actions (.plain 0) (.plain 0) (.plain 1) 0 ++
    Behaviour.cover.actions (.plain 1) (.plain 2) (.plain 6) 0 ++
    (Behaviour.dimmerSingle ⟨5, 5, .plain 50⟩).actions (.plain 3) (.plain 3) (.plain 7) 0

theorem mixedTemplates_leavePlaces : LeavesPlaces mixedTemplates := by
  intro fields hfields
  simp only [mixedTemplates, List.mem_cons, Value.dict.injEq, List.not_mem_nil, or_false] at hfields
  rcases hfields with rfl | rfl | rfl
  all_goals exact List.forall_iff_forall_mem.mp ⟨rfl, rfl, rfl⟩

theorem compiled_places_mixed :
    (∀ vs, templateItems (.list mixedTemplates) = .ok vs → LeavesPlaces vs) ∧
    (compileInputActions (.list mixedTemplates) (.str "C4")).outcome = .ok mixedRows ∧
    ∃ model vs ts, Model.ofValue (.str "C4") = .ok model ∧
      templateItems (.list mixedTemplates) = .ok vs ∧ Checks 0 vs ts ∧
      Allocation model ts (places model ts) ∧ (∀ p ∈ places model ts, p.Fits) ∧
      (mixedRows.map InputAction.trigger).Nodup := by
  have hleaves : ∀ vs, templateItems (.list mixedTemplates) = .ok vs → LeavesPlaces vs := by
    intro vs hvs
    cases hvs
    exact mixedTemplates_leavePlaces
  have hrows : (compileInputActions (.list mixedTemplates) (.str "C4")).outcome = .ok mixedRows := rfl
  obtain ⟨hcompiled, hfits⟩ := compiled_places (.list mixedTemplates) (.str "C4") hleaves
  obtain ⟨model, vs, ts, hmodel, hvs, hts, hallocation, -, -, -, -, htriggers⟩ :=
    hcompiled mixedRows hrows
  have hplaces := (hfits model vs ts hmodel hvs hts).mp ⟨mixedRows, hrows⟩
  exact ⟨hleaves, hrows, model, vs, ts, hmodel, hvs, hts, hallocation, hplaces, htriggers⟩

end Commissioning

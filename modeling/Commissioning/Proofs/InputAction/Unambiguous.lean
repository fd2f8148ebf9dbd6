import Commissioning.Proofs.InputAction.GivenFields

/-!
What a table tells about the templates it was compiled from. Where templates name no place, each
takes the inputs after those of the one before it, so the input of a row tells where the rows of one
template end and those of the next one begin. The transitions of its first input, and the command on
the first of them, tell the type:

    toggle           ↓ toggle               on               ↓ on
    toggle_switch    ↓ toggle   ↑ toggle    on_off_switch    ↓ on     ↑ off
    cover            ↓ open     ↑ stop      cover_up         ↓ open

Whatever else a type needs stands in the payloads. So templates that compile to one table do the
same, one by one.
-/
namespace Commissioning
open InputAction

/-! ### Types read off rows -/

/-- What tells the type of a template: the cluster and the command of its first row, and the
transitions of its first input. -/
structure Mark where
  cluster : Int
  command : Int
  transitions : List Int
  deriving DecidableEq

/-- The mark of the rows of one input. -/
def Mark.ofRows (rows : List (List Int)) : Mark :=
  let first := rows.headD []
  { cluster := first.getD 3 0 + 256 * first.getD 4 0
    command := first.getD 5 0
    transitions := rows.map fun r => r.getD 1 0 }

namespace Family
open Transition

/-- The marks of a type: two if its second scene may be missing. -/
def marks : Family → List Mark
  | toggle => [⟨onOffCluster, toggleCommand, [releasedToPressed]⟩]
  | toggleSwitch => [⟨onOffCluster, toggleCommand, [releasedToPressed, anyToReleased]⟩]
  | onOffSwitch => [⟨onOffCluster, onCommand, [releasedToPressed, anyToReleased]⟩]
  | on => [⟨onOffCluster, onCommand, [releasedToPressed]⟩]
  | off => [⟨onOffCluster, offCommand, [releasedToPressed]⟩]
  | dimmerSingle => [⟨onOffCluster, toggleCommand, [pressedToReleased, keptPressedAlternate,
      keptPressedIsAlternate, keptPressedToReleased]⟩]
  | dimmerDouble => [⟨onOffCluster, onCommand, [pressedToReleased, pressedToKeptPressed,
      keptPressedToReleased]⟩]
  | cover => [⟨coveringCluster, openCommand, [releasedToPressed, pressedToReleased]⟩]
  | coverSwitch => [⟨coveringCluster, openCommand, [releasedToPressed, anyToReleased]⟩]
  | coverUp => [⟨coveringCluster, openCommand, [releasedToPressed]⟩]
  | coverDown => [⟨coveringCluster, closeCommand, [releasedToPressed]⟩]
  | scene => [⟨scenesCluster, recallCommand, [pressedToReleased]⟩,
      ⟨scenesCluster, recallCommand, [pressedToReleased, pressedToKeptPressed]⟩]
  | sceneSwitch => [⟨scenesCluster, recallCommand, [releasedToPressed]⟩,
      ⟨scenesCluster, recallCommand, [releasedToPressed, anyToReleased]⟩]

/-- The type that has a mark. -/
def ofMark? (m : Mark) : Option Family := all.find? fun f => f.marks.contains m

/-- No two types have a mark in common. -/
theorem ofMark?_eq_some {f : Family} : ∀ m ∈ f.marks, ofMark? m = some f := by
  cases f <;> decide

theorem width_pos (f : Family) : 0 < f.width := by
  cases f <;> decide

end Family

namespace Behaviour
variable (a b endpoint : Numeral) (group : Int) (x : Behaviour)

/-- The rows of the first input of a behaviour have a mark of its type. -/
theorem ofMark?_actions : Family.ofMark? (.ofRows
    (((x.actions a b endpoint group).take x.transitions.length).map InputAction.row)) =
      some x.family := by
  apply Family.ofMark?_eq_some
  cases x with
  | scene primary secondary | sceneSwitch primary secondary =>
    cases secondary with
    | none => exact List.mem_cons_self ..
    | some choice => exact List.mem_cons_of_mem _ (List.mem_cons_self ..)
  | _ => exact List.mem_cons_self ..

/-- The first rows of a behaviour are for its first input, and if there are other rows, then these
are for its second one. -/
theorem actions_parts :
    (∀ r ∈ (x.actions a b endpoint group).take x.transitions.length, r.input.number = a.number) ∧
      ∀ r ∈ (x.actions a b endpoint group).drop x.transitions.length,
        x.family.isDouble ∧ r.input.number = b.number := by
  have hfirst : ((x.actions a b endpoint group).take x.transitions.length).map trigger =
      x.transitions.map (Prod.mk a.number) := by
    rw [List.map_take, actions_trigger, List.take_left' (List.length_map _)]
  have hsecond : ((x.actions a b endpoint group).drop x.transitions.length).map trigger =
      if x.family.isDouble then x.transitions.map (Prod.mk b.number) else [] := by
    rw [List.map_drop, actions_trigger, List.drop_left' (List.length_map _)]
  constructor
  · intro r hr
    obtain ⟨_, -, htrigger⟩ := List.mem_map.mp (hfirst ▸ List.mem_map_of_mem (f := trigger) hr)
    exact (congrArg Prod.fst htrigger).symm
  · intro r hr
    have hmem := List.mem_map_of_mem (f := trigger) hr
    rw [hsecond] at hmem
    split at hmem
    · next hdouble =>
      obtain ⟨_, -, htrigger⟩ := List.mem_map.mp hmem
      exact ⟨hdouble, (congrArg Prod.fst htrigger).symm⟩
    · cases hmem

end Behaviour

/-! ### Where the rows of a template end -/

/-- Rows of two parts of which one is for inputs below `n` and the other one is not can be told
apart in one way only. -/
theorem rows_split {front back front' back' : List InputAction} {n : Int}
    (hfront : ∀ a ∈ front, a.input.number < n) (hback : ∀ a ∈ back, n ≤ a.input.number)
    (hfront' : ∀ a ∈ front', a.input.number < n) (hback' : ∀ a ∈ back', n ≤ a.input.number)
    (h : (front ++ back).map row = (front' ++ back').map row) :
    front.map row = front'.map row ∧ back.map row = back'.map row := by
  have hlength {front back : List InputAction} (hfront : ∀ a ∈ front, a.input.number < n)
      (hback : ∀ a ∈ back, n ≤ a.input.number) :
      ((front ++ back).map row).countP (fun r => r.headD 0 < n) = front.length := by
    have hbelow : front.countP ((fun r => decide (r.headD 0 < n)) ∘ row) = front.length :=
      List.countP_eq_length.mpr fun a ha => decide_eq_true (hfront a ha)
    have hfrom : back.countP ((fun r => decide (r.headD 0 < n)) ∘ row) = 0 :=
      List.countP_eq_zero.mpr fun a ha h => Int.not_lt.mpr (hback a ha) (of_decide_eq_true h)
    rw [List.countP_map, List.countP_append, hbelow, hfrom, Nat.add_zero]
  have hlengths : front.length = front'.length := by
    rw [← hlength hfront hback, h, hlength hfront' hback']
  rw [List.map_append, List.map_append] at h
  refine List.append_inj h ?_
  rw [List.length_map, List.length_map, hlengths]

namespace Template
variable {model : Model} {c c' : Cursor Numeral} {input endpoint : Int} {t t' : Template}

/-- The rows of a template that names no place fall into those for its first input, which have a
mark of its type, and those for another one. -/
theorem Unplaced.exists_parts (model : Model) (ht : t.Unplaced) (hc : c.Stands input endpoint) :
    ∃ first second, (t.expansion model c).actions = first ++ second ∧
      (∀ a ∈ first, a.input.number < input + 1) ∧ (∀ a ∈ second, input + 1 ≤ a.input.number) ∧
      Family.ofMark? (.ofRows (first.map row)) = some t.family := by
  obtain ⟨next, hnext, rfl⟩ := hc.inputs
  obtain ⟨hfirst, hsecond, -⟩ := t.place_inputs model hnext
  obtain ⟨hfree, hlast⟩ := ht.inputsAt next
  obtain ⟨hrows, hrows'⟩ := Behaviour.actions_parts (c.place model t).inputs.first
    (c.place model t).inputs.second (c.place model t).endpoint c.group t.behaviour
  refine ⟨_, _, (List.take_append_drop t.behaviour.transitions.length _).symm, ?_, ?_,
    Behaviour.ofMark?_actions ..⟩
  · intro a ha
    rw [hrows a ha, hfirst, hfree]
    omega
  · intro a ha
    obtain ⟨hdouble, hnumber⟩ := hrows' a ha
    have hwidth : t.family.width = 2 := if_pos hdouble
    rw [hnumber, hsecond, hlast, hwidth]
    omega

/-- Templates of which the first one is put at an input have no rows for those before it. -/
theorem le_input_of_mem (model : Model) {ts : List Template} (hts : ∀ t ∈ ts, t.Unplaced)
    (hc : c.Stands input endpoint) :
    ∀ a ∈ (expansions model c ts).flatMap Expansion.actions, input ≤ a.input.number := by
  have hle := forall_of_forall₂ (expansions_take hts hc) (P := fun e => ∀ a ∈ e.actions,
    input ≤ a.input.number) (Q := fun p => input ≤ p.input)
    (fun e p he hp a ha => Int.le_trans hp ((he.holds.inputs _).mp ⟨a, ha, rfl⟩).1)
    fun p hp => (le_of_mem_placesFrom model input endpoint ts p hp).1
  intro a ha
  obtain ⟨e, he, ha⟩ := List.mem_flatMap.mp ha
  exact hle e he a ha

/-- Every template gives rows. -/
theorem map_actions_ne_nil (model : Model) (c : Cursor Numeral) (t : Template)
    (rest : List InputAction) : ((t.expansion model c).actions ++ rest).map row ≠ [] := by
  obtain ⟨a, ha, -⟩ : ∃ a ∈ (t.expansion model c).actions, a.input.number = _ :=
    Behaviour.exists_action_input.mpr (.inl rfl)
  exact List.ne_nil_of_mem (List.mem_map_of_mem (List.mem_append_left rest ha))

/-- Templates that stand at one place have one type if their rows and those that follow are the
same. -/
theorem Unplaced.family_eq (ht : t.Unplaced) (ht' : t'.Unplaced) (hc : c.Stands input endpoint)
    (hc' : c'.Stands input endpoint) {rest rest' : List InputAction}
    (hrest : ∀ a ∈ rest, input + 1 ≤ a.input.number)
    (hrest' : ∀ a ∈ rest', input + 1 ≤ a.input.number)
    (h : ((t.expansion model c).actions ++ rest).map row =
      ((t'.expansion model c').actions ++ rest').map row) : t.family = t'.family := by
  obtain ⟨first, second, hparts, hfirst, hsecond, hmark⟩ := ht.exists_parts model hc
  obtain ⟨first', second', hparts', hfirst', hsecond', hmark'⟩ := ht'.exists_parts model hc'
  rw [hparts, hparts', List.append_assoc, List.append_assoc] at h
  obtain ⟨hrows, -⟩ := rows_split hfirst (List.forall_mem_append.mpr ⟨hsecond, hrest⟩) hfirst'
    (List.forall_mem_append.mpr ⟨hsecond', hrest'⟩) h
  rw [hrows] at hmark
  exact Option.some.inj (hmark.symm.trans hmark')

end Template

/-- Two templates have compiled to the same rows, and are of one type. -/
structure Expansion.SameRows (e e' : Expansion) : Prop where
  family : e.family = e'.family
  rows : e.actions.map row = e'.actions.map row

/-- A table falls into the rows of its templates in one way only. -/
theorem expansions_sameRows {model : Model} {ts ts' : List Template} (hts : ∀ t ∈ ts, t.Unplaced)
    (hts' : ∀ t ∈ ts', t.Unplaced) {c c' : Cursor Numeral} {input endpoint : Int}
    (hc : c.Stands input endpoint) (hc' : c'.Stands input endpoint)
    (h : ((expansions model c ts).flatMap Expansion.actions).map row =
      ((expansions model c' ts').flatMap Expansion.actions).map row) :
    List.Forall₂ Expansion.SameRows (expansions model c ts) (expansions model c' ts') := by
  induction ts generalizing ts' c c' input endpoint with
  | nil =>
    cases ts' with
    | nil => exact .nil
    | cons t' ts' => exact absurd h.symm (t'.map_actions_ne_nil model c' _)
  | cons t ts ih =>
    cases ts' with
    | nil => exact absurd h (t.map_actions_ne_nil model c _)
    | cons t' ts' =>
      obtain ⟨ht, hts⟩ := List.forall_mem_cons.mp hts
      obtain ⟨ht', hts'⟩ := List.forall_mem_cons.mp hts'
      obtain ⟨htakes, hafter⟩ := ht.step model hc
      obtain ⟨htakes', hafter'⟩ := ht'.step model hc'
      have hrest := Template.le_input_of_mem model hts hafter
      have hrest' := Template.le_input_of_mem model hts' hafter'
      have hpast {u : Template} {n : Int}
          (hn : input + (u.placeAt model input endpoint).width ≤ n) : input + 1 ≤ n := by
        have hwidth : 0 < (u.placeAt model input endpoint).width := u.family.width_pos
        omega
      have hfamily : t.family = t'.family := ht.family_eq ht' hc hc'
        (fun a ha => hpast (hrest a ha)) (fun a ha => hpast (hrest' a ha)) h
      -- templates of one type take up the same inputs, so both end at the same one
      have hplace : t'.placeAt model input endpoint = t.placeAt model input endpoint := by
        unfold Template.placeAt
        rw [hfamily]
      rw [hplace] at htakes' hafter' hrest'
      obtain ⟨hhead, htail⟩ := rows_split (fun a ha => ((htakes.holds.inputs _).mp ⟨a, ha, rfl⟩).2)
        hrest (fun a ha => ((htakes'.holds.inputs _).mp ⟨a, ha, rfl⟩).2) hrest' h
      exact .cons ⟨hfamily, hhead⟩ (ih hts hts' hafter hafter' htail)

/-! ### What templates do -/

/-- Two dimmers that send the same commands at the same rate. -/
structure Dimming.Same (d d' : Dimming) : Prop where
  up : d.up = d'.up
  down : d.down = d'.down
  rate : d.rate.number = d'.rate.number

/-- Two templates that stand after others do the same: they are of one type, dim with the same
commands at the same rate, and recall the same scenes of the same groups. -/
structure SameBehaviour (before : List Entries) (fields : Entries) (before' : List Entries)
    (fields' : Entries) : Prop where
  family : Template.family? fields = Template.family? fields'
  dimming : (∃ f ∈ Template.family? fields, f.isDimmer) →
    (Template.dimmingOf fields (Template.number? fields "rate")).Same
      (Template.dimmingOf fields' (Template.number? fields' "rate"))
  scenes : Template.asksScene fields → scenesAsked before fields = scenesAsked before' fields'

/-- A row recalls one scene of one group. -/
theorem InputAction.Recalls.unique {a a' : InputAction} {s s' : GroupScene} (h : a.Recalls s)
    (h' : a'.Recalls s') (hrow : a.row = a'.row) : s = s' := by
  obtain ⟨head, low, high, hshape, hgroup⟩ := h.row
  obtain ⟨head', low', high', hshape', hgroup'⟩ := h'.row
  rw [hshape, hshape'] at hrow
  obtain ⟨-, htail⟩ := List.append_inj' hrow rfl
  cases s
  cases s'
  cases htail
  cases hgroup.symm.trans hgroup'
  rfl

/-- Rows recall one list of scenes. -/
theorem recalls_unique {rows rows' : List InputAction} {ss ss' : List GroupScene}
    (h : List.Forall₂ InputAction.Recalls rows ss) (h' : List.Forall₂ InputAction.Recalls rows' ss')
    (hrows : rows.map row = rows'.map row) : ss = ss' := by
  induction h generalizing rows' ss' with
  | nil =>
    cases List.map_eq_nil_iff.mp hrows.symm
    cases h'
    rfl
  | cons hs _ ih =>
    cases h' with
    | nil => cases hrows
    | cons hs' hrest' =>
      obtain ⟨hrow, hrows⟩ := List.cons.inj hrows
      rw [hs.unique hs' hrow, ih hrest' hrows]

/-- Dimmers of one type that have the same rows dim alike. -/
theorem Behaviour.dimming_same {a b endpoint a' b' endpoint' : Numeral} {group group' : Int}
    {x y : Behaviour} {d d' : Dimming} (hx : x = .dimmerSingle d ∨ x = .dimmerDouble d)
    (hy : y = .dimmerSingle d' ∨ y = .dimmerDouble d') (hfamily : x.family = y.family)
    (h : (x.actions a b endpoint group).map row = (y.actions a' b' endpoint' group').map row) :
    d.Same d' := by
  have octet (k n : Nat) := congrArg (fun rows : List (List Int) => (rows.getD k []).getD n 0) h
  rcases hx with rfl | rfl
  · rcases hy with rfl | rfl
    · exact ⟨octet 1 5, octet 2 5, octet 1 7⟩
    · cases hfamily
  · rcases hy with rfl | rfl
    · cases hfamily
    · exact ⟨octet 1 5, octet 4 5, octet 1 7⟩

namespace Template
variable {model : Model} {c c' : Cursor Numeral} {fields fields' : Entries} {t t' : Template}
  {before before' : List Entries}

/-- Templates of one type that compile to the same rows do the same. -/
theorem Describes.sameBehaviour (h : Describes fields t) (h' : Describes fields' t')
    (hsame : (t.expansion model c).SameRows (t'.expansion model c'))
    (hshows : ShowsScenes before fields (t.expansion model c).actions)
    (hshows' : ShowsScenes before' fields' (t'.expansion model c').actions) :
    SameBehaviour before fields before' fields' := by
  have hfamily : t.family = t'.family := hsame.family
  constructor
  case family => exact h.reads.1.trans ((congrArg some hfamily).trans h'.reads.1.symm)
  case dimming =>
    rintro ⟨f, hf, hdims⟩
    cases h.reads.1.symm.trans hf
    have hdims' : t'.family.isDimmer := by
      rw [← hfamily]
      exact hdims
    exact Behaviour.dimming_same (h.dimmer hdims) (h'.dimmer hdims') hfamily hsame.rows
  case scenes =>
    intro hasks
    have hasks' : Template.asksScene fields' := by
      rw [h'.asksScene, ← hfamily, ← h.asksScene]
      exact hasks
    rw [ShowsScenes, if_pos hasks] at hshows
    rw [ShowsScenes, if_pos hasks'] at hshows'
    exact recalls_unique hshows hshows' hsame.rows

end Template

/-- Templates that name no place do the same, one by one, if they compile to the same rows for a
model. -/
theorem compiled_unambiguous {templates templates' name : Value} {rows rows' : List InputAction}
    (hplaces : ∀ vs, templateItems templates = .ok vs → LeavesPlaces vs)
    (hplaces' : ∀ vs, templateItems templates' = .ok vs → LeavesPlaces vs)
    (h : (compileInputActions templates name).outcome = .ok rows)
    (h' : (compileInputActions templates' name).outcome = .ok rows')
    (hrows : rows.map InputAction.row = rows'.map InputAction.row) :
    ∃ p p' : List Entries, templateItems templates = .ok (p.map Value.dict) ∧
      templateItems templates' = .ok (p'.map Value.dict) ∧ p.length = p'.length ∧
      ∀ (k : Nat) fields fields', p[k]? = some fields → p'[k]? = some fields' →
        SameBehaviour (p.take k) fields (p'.take k) fields' := by
  obtain ⟨model, p, ts, hmodel, hitems, hp, hfits, hblocks, rfl⟩ := exists_blocks h
  obtain ⟨model', p', ts', hmodel', hitems', hp', hfits', hblocks', rfl⟩ := exists_blocks h'
  cases hmodel.symm.trans hmodel'
  rw [hblocks, hblocks', ← List.flatMap_def, ← List.flatMap_def] at hrows
  have hsame := expansions_sameRows ((checks_of_describes hp 0).unplaced (hplaces _ hitems))
    ((checks_of_describes hp' 0).unplaced (hplaces' _ hitems')) (Cursor.stands_start model)
    (Cursor.stands_start model) hrows
  refine ⟨p, p', hitems, hitems', ?_, fun k fields fields' hk hk' => ?_⟩
  · have hlength := hsame.length_eq
    rw [length_expansions, length_expansions] at hlength
    rw [hp.length_eq, hlength, hp'.length_eq]
  · obtain ⟨t, c, ht, hexpansion, hgroup⟩ := exists_expansion hp hk
    obtain ⟨t', c', ht', hexpansion', hgroup'⟩ := exists_expansion hp' hk'
    have hshows := ht.showsScenes hgroup (hfits _ (List.mem_of_getElem? hexpansion))
    have hshows' := ht'.showsScenes hgroup' (hfits' _ (List.mem_of_getElem? hexpansion'))
    have hpair := (List.getElem?_zip_eq_some (z := (_, _))).mpr ⟨hexpansion, hexpansion'⟩
    exact ht.sameBehaviour ht' (List.forall₂_zip hsame (List.mem_of_getElem? hpair)) hshows hshows'

/-- Scenes that both name their group, and a dimmer that names its rate. -/
def explicitTemplates : List Entries := [
  [("type", .str "scene"), ("scene_id", .int 1), ("group_id", .int 7)],
  [("type", .str "scene"), ("scene_id", .int 2), ("group_id", .int 7)],
  [("type", .str "dimmer_single"), ("rate", .int 50), ("no_onoff", .bool false)]]

/-- The same with the group and the rate left to what they are anyway. -/
def terseTemplates : List Entries := [
  [("type", .str "scene"), ("scene_id", .int 1), ("group_id", .int 7)],
  [("type", .str "scene"), ("scene_id", .int 2)],
  [("type", .str "dimmer_single")]]

/-- The rows of both. -/
def sharedRows : List InputAction :=
  Behaviour.scenePair (.plain 0) (.plain 2) 7 0x07 0x06 ⟨.plain 1, none⟩ none ++
    Behaviour.scenePair (.plain 1) (.plain 3) 7 0x07 0x06 ⟨.plain 2, none⟩ none ++
    (Behaviour.dimmerSingle ⟨5, 5, .plain 50⟩).actions (.plain 2) (.plain 2) (.plain 4) 0

theorem leavesPlaces_of_isNull {p : List Entries}
    (h : ∀ fields ∈ p, placeKeys.all fun key => (fields.get key).isNull) :
    ∀ vs, templateItems (.list (p.map Value.dict)) = .ok vs → LeavesPlaces vs := by
  rintro vs hvs fields hfields key hkey
  cases hvs
  obtain ⟨fields', hmem, heq⟩ := List.mem_map.mp hfields
  cases heq
  exact Value.isNull_iff.mp (List.all_eq_true.mp (h fields hmem) key hkey)

theorem compiled_unambiguous_scenes :
    let explicit := Value.list (explicitTemplates.map Value.dict)
    let terse := Value.list (terseTemplates.map Value.dict)
    (∀ vs, templateItems explicit = .ok vs → LeavesPlaces vs) ∧
    (∀ vs, templateItems terse = .ok vs → LeavesPlaces vs) ∧
    (compileInputActions explicit (.str "S1")).outcome = .ok sharedRows ∧
    (compileInputActions terse (.str "S1")).outcome = .ok sharedRows ∧
    ∃ p p' : List Entries, templateItems explicit = .ok (p.map Value.dict) ∧
      templateItems terse = .ok (p'.map Value.dict) ∧ p.length = p'.length ∧
      ∀ (k : Nat) fields fields', p[k]? = some fields → p'[k]? = some fields' →
        SameBehaviour (p.take k) fields (p'.take k) fields' := by
  intro explicit terse
  have hplaces := leavesPlaces_of_isNull (p := explicitTemplates)
    (List.forall_iff_forall_mem.mp ⟨rfl, rfl, rfl⟩)
  have hplaces' := leavesPlaces_of_isNull (p := terseTemplates)
    (List.forall_iff_forall_mem.mp ⟨rfl, rfl, rfl⟩)
  have hrows : (compileInputActions explicit (.str "S1")).outcome = .ok sharedRows := rfl
  have hrows' : (compileInputActions terse (.str "S1")).outcome = .ok sharedRows := rfl
  exact ⟨hplaces, hplaces', hrows, hrows', compiled_unambiguous hplaces hplaces' hrows hrows' rfl⟩

end Commissioning

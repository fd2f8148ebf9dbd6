import Commissioning.Proofs.InputAction.Blocks

/-!
The group of each scene. A scene that names no group takes the one that a scene before it has named
last, and a second scene is one of the same group unless it names its own. A group that stands
anywhere else is never put in force:

    template        scene g 7    toggle g 9    scene    scene g₂ 5, with a second one    scene
    puts in force   7                                   5
    recalls in      7                          7        7, 5                             5

The cursor carries the group in force from one template to the next.
-/
namespace Commissioning

/-! ### Groups in force -/

namespace Template

/-- The group under a key. -/
def group? (fields : Entries) (key : String) : Option Int := (number? fields key).map Numeral.number

/-- The groups that fields put in force, one after the other. -/
def applied (fields : Entries) : List Int :=
  if asksScene fields then
    (group? fields "group_id").toList ++
      if (number? fields "scene_id_2").isSome then (group? fields "group_id_2").toList else []
  else []

end Template

/-- The group of the first scene of a template: the one that was put in force last, by the template
itself or before it, zero if there is none. -/
def primaryGroup (before : List Entries) (fields : Entries) : Int :=
  (before.flatMap Template.applied ++ (Template.group? fields "group_id").toList).getLastD 0

/-- The group of the second scene of a template. -/
def secondaryGroup (before : List Entries) (fields : Entries) : Int :=
  (Template.group? fields "group_id_2").getD (primaryGroup before fields)

/-- A scene of a group. -/
structure GroupScene where
  group : Int
  scene : Int

/-- The scenes that the fields of a template ask for, in the groups that they are then in. -/
def scenesAsked (before : List Entries) (fields : Entries) : List GroupScene :=
  ((Template.number? fields "scene_id").map fun n =>
    ⟨primaryGroup before fields, n.number⟩).toList ++
  ((Template.number? fields "scene_id_2").map fun n =>
    ⟨secondaryGroup before fields, n.number⟩).toList

/-- A row of octets that recalls a scene: its last octet is the scene, and the two before that are
the group, the low one first. -/
structure InputAction.Recalls (a : InputAction) (s : GroupScene) : Prop where
  cluster : a.cluster = scenesCluster
  octets : ∀ n ∈ a.row, IsOctet n
  row : ∃ head low high, a.row = head ++ [low, high, s.scene] ∧ low + 256 * high = s.group

theorem getLastD_append {α : Type} (l l' : List α) (a : α) :
    (l ++ l').getLastD a = l'.getLastD (l.getLastD a) := by
  rw [List.getLastD_eq_getLast?, List.getLastD_eq_getLast?, List.getLastD_eq_getLast?,
    List.getLast?_append]
  cases l'.getLast? <;> rfl

theorem getLastD_toList (o : Option Int) (n : Int) : o.toList.getLastD n = o.getD n := by
  cases o <;> rfl

namespace Template
variable {fields : Entries} {t : Template} {before : List Entries}

/-- A behaviour leaves that group in force which its fields put in force last. -/
theorem Describes.groupAfter (h : Describes fields t) (g : Int) :
    t.behaviour.groupAfter g = (applied fields).getLastD g := by
  have hread := h.readFrom
  have hasks : Template.asksScene fields = t.behaviour.family.isScene := h.asksScene
  unfold applied
  rw [hasks]
  cases hx : t.behaviour with
  | scene primary secondary | sceneSwitch primary secondary =>
    rw [hx] at hread
    obtain ⟨hprimary, rfl⟩ := hread
    obtain ⟨n, -, rfl⟩ := Option.map_eq_some_iff.mp hprimary
    rw [if_pos (by rfl), getLastD_append, getLastD_toList]
    unfold scene?
    cases number? fields "scene_id_2" with
    | none => rfl
    | some m => exact (getLastD_toList _ _).symm
  | _ => rfl

/-- Where the group in force is the one that templates have put in force, the rows of scenes recall
the scenes that fields ask for. -/
theorem scenePair_recalls {a endpoint : Numeral} {first second : Int} {primary : SceneChoice}
    {secondary : Option SceneChoice} {g : Int}
    (hg : g = (before.flatMap applied).getLastD 0)
    (hprimary : scene? fields "scene_id" "group_id" = some primary)
    (hsecondary : secondary = scene? fields "scene_id_2" "group_id_2")
    (hfits : ∀ r ∈ Behaviour.scenePair a endpoint g first second primary secondary, rowFits r.row) :
    List.Forall₂ InputAction.Recalls
      (Behaviour.scenePair a endpoint g first second primary secondary)
      (scenesAsked before fields) := by
  have hrecalls (transition group : Int) (scene : Numeral)
      (h : rowFits (InputAction.recallScene a transition endpoint group scene).row) :
      (InputAction.recallScene a transition endpoint group scene).Recalls ⟨group, scene.number⟩ :=
    ⟨rfl, rowFits_iff.mp h, _, group % 256, group / 256, InputAction.row_eq _,
      Int.emod_add_mul_ediv group 256⟩
  obtain ⟨n, hn, rfl⟩ := Option.map_eq_some_iff.mp hprimary
  have hgroup : primaryGroup before fields = (group? fields "group_id").getD g := by
    rw [primaryGroup, getLastD_append, getLastD_toList, hg]
  subst hsecondary
  unfold scenesAsked secondaryGroup
  rw [hn, hgroup]
  unfold Behaviour.scenePair scene? at hfits ⊢
  obtain ⟨hfirst, hsecond⟩ := List.forall_mem_cons.mp hfits
  refine .cons (hrecalls _ _ _ hfirst) ?_
  cases hm : number? fields "scene_id_2" with
  | none => exact .nil
  | some m =>
    rw [hm] at hsecond
    exact .cons (hrecalls _ _ _ (hsecond _ (List.mem_cons_self ..))) .nil

end Template

/-! ### Templates after others -/

/-- Only rows of scenes command the scenes cluster. -/
theorem Behaviour.actions_scene {a b endpoint : Numeral} {group : Int} {x : Behaviour} :
    ∀ r ∈ x.actions a b endpoint group,
      r.cluster = InputAction.scenesCluster ↔ x.family.isScene := by
  have hall : (x.actions a b endpoint group).all
      (fun r => decide (r.cluster = InputAction.scenesCluster) == x.family.isScene) = true := by
    cases x with
    | scene primary secondary | sceneSwitch primary secondary => cases secondary <;> rfl
    | _ => rfl
  intro r hr
  rw [← eq_of_beq (List.all_eq_true.mp hall r hr), decide_eq_true_iff]

/-- A template is expanded at a cursor with the group that those before it have put in force last.
-/
theorem exists_expansion {model : Model} {c : Cursor Numeral} {p : List Entries}
    {ts : List Template} (h : List.Forall₂ Template.Describes p ts) {k : Nat} {fields : Entries}
    (hk : p[k]? = some fields) :
    ∃ t c', Template.Describes fields t ∧
      (expansions model c ts)[k]? = some (t.expansion model c') ∧
      c'.group = ((p.take k).flatMap Template.applied).getLastD c.group := by
  induction h generalizing c k with
  | nil => cases hk
  | @cons head t p ts ht _ ih =>
    cases k with
    | zero =>
      cases hk
      exact ⟨t, c, ht, rfl, rfl⟩
    | succ k =>
      obtain ⟨u, c', hu, hk', hgroup⟩ := ih (c := t.after model c) hk
      refine ⟨u, c', hu, hk', ?_⟩
      rw [hgroup, List.take_succ_cons, List.flatMap_cons, getLastD_append, ← ht.groupAfter]
      rfl

/-- The rows of a template that stands after others recall the scenes that it asks for, and no scene
if it asks for none. -/
def ShowsScenes (before : List Entries) (fields : Entries) (rows : List InputAction) : Prop :=
  if Template.asksScene fields then
    List.Forall₂ InputAction.Recalls rows (scenesAsked before fields)
  else ∀ a ∈ rows, a.cluster ≠ InputAction.scenesCluster

theorem Template.Describes.showsScenes {model : Model} {c : Cursor Numeral} {fields : Entries}
    {t : Template} {before : List Entries} (h : Describes fields t)
    (hgroup : c.group = (before.flatMap applied).getLastD 0) (hfits : (t.expansion model c).Fits) :
    ShowsScenes before fields (t.expansion model c).actions := by
  have hread := h.readFrom
  change ∀ r ∈ t.behaviour.actions _ _ _ c.group, rowFits r.row at hfits
  change ShowsScenes before fields (t.behaviour.actions _ _ _ c.group)
  unfold ShowsScenes
  rw [h.asksScene, family]
  by_cases hscene : t.behaviour.family.isScene
  · rw [if_pos hscene]
    cases hx : t.behaviour with
    | scene primary secondary | sceneSwitch primary secondary =>
      rw [hx] at hread hfits
      exact scenePair_recalls hgroup hread.1 hread.2 hfits
    | _ =>
      rw [hx] at hscene
      cases hscene
  · rw [if_neg hscene]
    exact fun r hr hcluster => hscene ((Behaviour.actions_scene r hr).mp hcluster)

/-! ### Groups that are not put in force -/

namespace Template

/-- The keys of groups that fields do not put in force. -/
def idleKeys (fields : Entries) : List String :=
  if asksScene fields then
    if (number? fields "scene_id_2").isSome then [] else ["group_id_2"]
  else ["group_id", "group_id_2"]

/-- Fields that differ in groups at most that are not put in force, and are missing or fit. -/
structure SameButIdle (fields fields' : Entries) : Prop where
  same : ∀ key ∉ idleKeys fields, fields'.get key = fields.get key
  idle : ∀ key ∈ idleKeys fields, fields'.get key = .null ∨ IsUpTo 65535 (fields'.get key)

theorem describes_iff {fields : Entries} {t : Template} : Describes fields t ↔
    WellFormed fields ∧ family? fields = some t.behaviour.family ∧ ReadFrom fields t.behaviour ∧
      t.input = number? fields "input" ∧ t.inputs = pair? fields ∧
      t.endpoint = number? fields "endpoint" := by
  constructor
  · intro h
    obtain ⟨hfamily, hinput, hinputs, hendpoint⟩ := h.reads
    exact ⟨h.1, hfamily, h.readFrom, hinput, hinputs, hendpoint⟩
  · rintro ⟨hwell, hfamily, hread, hinput, hinputs, hendpoint⟩
    refine ⟨hwell, Option.map_eq_some_iff.mpr ⟨_, behaviour?_eq_some.mpr ⟨hfamily, hread⟩, ?_⟩⟩
    rw [← hinput, ← hinputs, ← hendpoint]

theorem idleKeys_subset (fields : Entries) : idleKeys fields ⊆ ["group_id", "group_id_2"] := by
  unfold idleKeys
  split
  · split
    · exact List.nil_subset _
    · exact List.subset_cons_self ..
  · exact List.Subset.refl _

theorem number?_congr {fields fields' : Entries} {key : String}
    (h : fields'.get key = fields.get key) : number? fields' key = number? fields key := by
  rw [number?, number?, h]

theorem scene?_congr {fields fields' : Entries} {scene group : String}
    (hscene : fields'.get scene = fields.get scene)
    (hgroup : (number? fields scene).isSome → fields'.get group = fields.get group) :
    scene? fields' scene group = scene? fields scene group := by
  unfold scene?
  rw [number?_congr hscene]
  cases h : number? fields scene with
  | none => rfl
  | some n => rw [number?_congr (hgroup (h ▸ rfl))]

section
variable {fields fields' : Entries} {t : Template}

theorem SameButIdle.get (h : SameButIdle fields fields') {key : String}
    (hkey : key ∉ ["group_id", "group_id_2"]) : fields'.get key = fields.get key :=
  h.same key fun hidle => hkey (idleKeys_subset fields hidle)

theorem SameButIdle.wellFormed (h : SameButIdle fields fields') (hfields : WellFormed fields) :
    WellFormed fields' := by
  constructor
  · intro e he
    by_cases hidle : e.1 ∈ idleKeys fields
    · have hmaximum : e.2 = 65535 := by
        have hgroups : ∀ e ∈ numberFields, e.1 ∈ ["group_id", "group_id_2"] → e.2 = 65535 := by
          decide
        exact hgroups e he (idleKeys_subset fields hidle)
      rw [hmaximum]
      exact h.idle e.1 hidle
    · rw [h.same e.1 hidle]
      exact hfields.numbers e he
  · rw [h.get (by decide)]
    exact hfields.inputs

theorem SameButIdle.readFrom (h : SameButIdle fields fields') {x : Behaviour}
    (hfamily : family? fields = some x.family) (hread : ReadFrom fields x) :
    ReadFrom fields' x := by
  have hasks : asksScene fields = x.family.isScene := by
    rw [asksScene, hfamily]
    rfl
  cases x with
  | scene primary secondary | sceneSwitch primary secondary =>
    have hidle : idleKeys fields =
        if (number? fields "scene_id_2").isSome then [] else ["group_id_2"] := by
      rw [idleKeys, hasks]
      rfl
    have hprimary : scene? fields' "scene_id" "group_id" = scene? fields "scene_id" "group_id" := by
      refine scene?_congr (h.get (by decide)) fun _ => h.same _ ?_
      rw [hidle]
      split <;> decide
    have hsecondary : scene? fields' "scene_id_2" "group_id_2" =
        scene? fields "scene_id_2" "group_id_2" := by
      refine scene?_congr (h.get (by decide)) fun hsecond => h.same _ ?_
      rw [hidle, if_pos hsecond]
      decide
    exact ⟨hprimary.trans hread.1, hread.2.trans hsecondary.symm⟩
  | dimmerSingle dimming | dimmerDouble dimming =>
    have hnever : fields'.get "no_onoff" = fields.get "no_onoff" := h.get (by decide)
    have hup : fields'.get "no_onoff_up" = fields.get "no_onoff_up" := h.get (by decide)
    have hdown : fields'.get "no_onoff_down" = fields.get "no_onoff_down" := h.get (by decide)
    have hdimming (rate : Option Numeral) : dimmingOf fields' rate = dimmingOf fields rate := by
      simp only [dimmingOf, hnever, hup, hdown]
    obtain rfl := hread
    change dimmingOf _ _ = dimmingOf _ _
    rw [hdimming, number?_congr (h.get (by decide))]
  | _ => trivial

/-- Groups that are not put in force do not change what fields describe. -/
theorem SameButIdle.describes (h : SameButIdle fields fields') (ht : Describes fields t) :
    Describes fields' t := by
  obtain ⟨hwell, hfamily, hread, hinput, hinputs, hendpoint⟩ := describes_iff.mp ht
  have hfamily' : family? fields' = family? fields := by
    rw [family?, family?, h.get (by decide)]
  have hpair : pair? fields' = pair? fields := by
    rw [pair?, pair?, h.get (by decide)]
  rw [describes_iff, hfamily', hpair, number?_congr (h.get (by decide)),
    number?_congr (h.get (by decide))]
  exact ⟨h.wellFormed hwell, hfamily, h.readFrom hfamily hread, hinput, hinputs, hendpoint⟩

theorem describes_of_sameButIdle {p p' : List Entries} {ts : List Template}
    (h : List.Forall₂ SameButIdle p p') (hp : List.Forall₂ Describes p ts) :
    List.Forall₂ Describes p' ts := by
  induction h generalizing ts with
  | nil => exact hp
  | cons hsame _ ih =>
    cases hp with
    | cons ht hrest => exact .cons (hsame.describes ht) (ih hrest)

end

end Template

/-! ### Lists of templates -/

/-- Each template of a list that compiles gives rows for the scenes that it asks for, each in the
group that was put in force last; groups that no template puts in force change no row. -/
theorem scenes_in_force {templates name : Value} {actions : List InputAction}
    (h : (compileInputActions templates name).outcome = .ok actions) :
    ∃ model p, Model.ofValue name = .ok model ∧ templateItems templates = .ok (p.map Value.dict) ∧
      actions = (blocks model p).flatten ∧ (blocks model p).length = p.length ∧
      (∀ k fields, p[k]? = some fields →
        ∃ block, (blocks model p)[k]? = some block ∧ ShowsScenes (p.take k) fields block) ∧
      ∀ p', List.Forall₂ Template.SameButIdle p p' → compiled name p' = .ok actions := by
  obtain ⟨model, p, ts, hmodel, hitems, hp, hfits, hblocks, hactions⟩ := exists_blocks h
  refine ⟨model, p, hmodel, hitems, hactions, ?_, ?_, ?_⟩
  · rw [hblocks, List.length_map, length_expansions, hp.length_eq]
  · intro k fields hk
    obtain ⟨t, c, ht, hexpansion, hgroup⟩ := exists_expansion hp hk
    refine ⟨_, ?_, ht.showsScenes hgroup (hfits _ (List.mem_of_getElem? hexpansion))⟩
    rw [hblocks, List.getElem?_map, hexpansion]
    rfl
  · intro p' hsame
    have hp' := Template.describes_of_sameButIdle hsame hp
    rw [compiled_of_describes hmodel hp' hfits, hactions, hblocks, List.flatMap_def]

/-- A scene, a switch with a group, two scenes of which the second one names its group, and a scene
with a second group for which it has no scene. -/
def groupedTemplates : List Entries := [
  [("type", .str "scene_switch"), ("group_id", .int 7), ("scene_id", .int 1)],
  [("type", .str "toggle"), ("group_id", .int 9)],
  [("type", .str "scene"), ("scene_id", .int 2), ("scene_id_2", .int 3), ("group_id_2", .int 258)],
  [("type", .str "scene"), ("scene_id", .int 4), ("group_id_2", .int 11)]]

/-- Their rows: the switch names no group, and neither does the last scene. -/
def groupedRows : List InputAction :=
  Behaviour.scenePair (.plain 0) (.plain 2) 7 0x0D 0x03 ⟨.plain 1, none⟩ none ++
    Behaviour.toggle.actions (.plain 1) (.plain 1) (.plain 3) 7 ++
    Behaviour.scenePair (.plain 2) (.plain 4) 7 0x07 0x06 ⟨.plain 2, none⟩
      (some ⟨.plain 3, some 258⟩) ++
    Behaviour.scenePair (.plain 3) (.plain 5) 258 0x07 0x06 ⟨.plain 4, none⟩ none

theorem scenes_in_force_carried :
    (compileInputActions (.list (groupedTemplates.map Value.dict)) (.str "S1")).outcome =
      .ok groupedRows ∧
    (groupedTemplates.take 3).flatMap Template.applied = [7, 258] ∧
    ∃ model p, Model.ofValue (.str "S1") = .ok model ∧
      templateItems (.list (groupedTemplates.map Value.dict)) = .ok (p.map Value.dict) ∧
      groupedRows = (blocks model p).flatten ∧ (blocks model p).length = p.length ∧
      (∀ k fields, p[k]? = some fields →
        ∃ block, (blocks model p)[k]? = some block ∧ ShowsScenes (p.take k) fields block) ∧
      ∀ p', List.Forall₂ Template.SameButIdle p p' → compiled (.str "S1") p' = .ok groupedRows := by
  have hrows : (compileInputActions (.list (groupedTemplates.map Value.dict)) (.str "S1")).outcome =
    .ok groupedRows := rfl
  exact ⟨hrows, rfl, scenes_in_force hrows⟩

end Commissioning

import Commissioning.Proofs.InputAction.CoverEndpoint
import Commissioning.Proofs.InputAction.SceneGroup

/-!
Numbers that templates give. What a template gives stands unchanged in each row that has a place for
it, and only what is missing comes from the cursor or from a default:

    octet      0       1            2          3, 4      5         6, 7         8
    scene      input   transition   endpoint   cluster   command   group        scene
    move       input   transition   endpoint   cluster   command   up, rate

The endpoint of a covering may be moved up on the way. A rate of zero is the one number that does
not arrive: it counts as missing, and the rows get the default rate.
-/
namespace Commissioning

/-! ### What fields give -/

/-- Dims. -/
def Family.isDimmer : Family → Bool
  | dimmerSingle | dimmerDouble => true
  | _ => false

/-- A row that starts to move the level, up or down. -/
def InputAction.moves (a : InputAction) : Bool :=
  a.cluster == levelCluster &&
    (a.command == Template.moveCommand || a.command == Template.moveWithOnOffCommand)

/-- The two rows that move the level have `n` as their last octet. -/
def MovesAt (rows : List InputAction) (n : Int) : Prop :=
  (rows.filter InputAction.moves).map (fun a => a.row.getLast?) = [some n, some n]

/-- The first half of the rows is for input `m` and the second half for input `n`. -/
def UsesPair (rows : List InputAction) (m n : Int) : Prop :=
  ∃ front back, rows = front ++ back ∧ front.length = back.length ∧
    (∀ a ∈ front, a.row[0]? = some m) ∧ ∀ a ∈ back, a.row[0]? = some n

namespace Template

/-- If anything is given under a key, then a number that has a property. -/
def Given (fields : Entries) (key : String) (P : Int → Prop) : Prop :=
  fields.get key ≠ .null → ∃ n, number? fields key = some n ∧ P n.number

/-- Rows hold what the fields of a template of a type give for them, all but the rate. -/
structure Holds (model : Model) (family : Family) (fields : Entries) (rows : List InputAction) :
    Prop where
  input : ¬ family.isDouble → Given fields "input" fun n => ∀ a ∈ rows, a.row[0]? = some n
  inputs : family.isDouble → fields.get "inputs" ≠ .null →
    ∃ m n, pair? fields = some (m, n) ∧ UsesPair rows m.number n.number
  firstInput : family.isDouble → fields.get "inputs" = .null →
    Given fields "input" fun n => UsesPair rows n (n + 1)
  endpoint : Given fields "endpoint" fun n =>
    ∀ a ∈ rows, a.row[2]? = some (family.endpointFrom model n)
  scene : family.isScene → ∃ first rest s, rows = first :: rest ∧ first.Recalls s ∧
    Given fields "scene_id" (· = s.scene) ∧ Given fields "group_id" (· = s.group)
  secondScene : family.isScene → Given fields "scene_id_2" fun n =>
    ∃ first second s, rows = [first, second] ∧ second.Recalls s ∧ n = s.scene ∧
      Given fields "group_id_2" (· = s.group)

/-- Rows of a dimmer hold the rate that its fields give exactly if it is not zero. -/
structure HoldsRate (family : Family) (fields : Entries) (rows : List InputAction) : Prop where
  given : family.isDimmer → Given fields "rate" fun n => MovesAt rows n ↔ n ≠ 0
  missing : family.isDimmer → fields.get "rate" = .null → MovesAt rows defaultRate

variable {fields : Entries} {key : String} {maximum : Nat} {P : Int → Prop}

theorem WellFormed.given (h : WellFormed fields) (hkey : (key, maximum) ∈ numberFields)
    (hP : ∀ n, number? fields key = some n → P n.number) : Given fields key P := by
  intro hgiven
  obtain ⟨n, hn, -⟩ := h.number hkey hgiven
  exact ⟨n, hn, hP n hn⟩

end Template

/-! ### Inputs and endpoint -/

namespace Behaviour
variable {a b endpoint : Numeral} {group : Int} {x : Behaviour}

theorem actions_pair (h : x.family.isDouble) :
    UsesPair (x.actions a b endpoint group) a.number b.number := by
  cases x with
  | dimmerDouble dimming =>
    refine ⟨[_, _, _], [_, _, _], rfl, rfl, ?_, ?_⟩
    · exact List.forall_iff_forall_mem.mp ⟨rfl, rfl, rfl⟩
    · exact List.forall_iff_forall_mem.mp ⟨rfl, rfl, rfl⟩
  | cover | coverSwitch =>
    refine ⟨[_, _], [_, _], rfl, rfl, ?_, ?_⟩
    · exact List.forall_iff_forall_mem.mp ⟨rfl, rfl⟩
    · exact List.forall_iff_forall_mem.mp ⟨rfl, rfl⟩
  | _ => cases h

theorem actions_input (h : ¬ x.family.isDouble) :
    ∀ r ∈ x.actions a b endpoint group, r.row[0]? = some a.number := by
  intro r hr
  have hinput : r.input ∈ x.rowInputs a b :=
    actions_inputs a b endpoint group x ▸ List.mem_map_of_mem hr
  rcases mem_rowInputs.mp hinput with ha | ⟨hdouble, -⟩
  · exact congrArg (fun n => some n.number) ha
  · exact absurd hdouble h

end Behaviour

namespace Template
variable {model : Model} {c : Cursor Numeral} {t : Template} {n : Numeral}

/-- The rows of a template that uses one input are for the one that it names. -/
theorem expansion_input (h : t.input = some n) (hsingle : ¬ t.family.isDouble) :
    ∀ a ∈ (t.expansion model c).actions, a.row[0]? = some n.number := by
  have hfirst : (c.place model t).inputs.first = n := by
    unfold Cursor.place
    rw [h]
    exact congrArg Inputs.first (if_neg hsingle)
  intro a ha
  rw [Behaviour.actions_input hsingle a ha, hfirst]

/-- The rows of a template that uses two inputs are for its pair; if it names none, for two in a row
from its input on. -/
theorem expansion_pair (model : Model) (c : Cursor Numeral) (hdouble : t.family.isDouble) :
    ∃ first : Numeral, (∀ n ∈ t.input, first = n) ∧
      UsesPair (t.expansion model c).actions (t.pair first).1.number (t.pair first).2.number := by
  have hplace : (c.place model t).inputs =
      .several [(t.pair (t.input.elim c.inputs .one).first).1,
        (t.pair (t.input.elim c.inputs .one).first).2] := by
    unfold Cursor.place
    cases t.input with
    | none => exact if_pos hdouble
    | some n => exact if_pos hdouble
  refine ⟨(t.input.elim c.inputs .one).first, ?_, ?_⟩
  · intro n hn
    rw [hn]
    rfl
  · change UsesPair (t.behaviour.actions (c.place model t).inputs.first
      (c.place model t).inputs.second _ _) _ _
    rw [hplace]
    exact Behaviour.actions_pair hdouble

/-- The rows of a template are sent from the endpoint that it names, moved up if need be. -/
theorem expansion_endpoint (h : t.endpoint = some n) :
    ∀ a ∈ (t.expansion model c).actions,
      a.row[2]? = some (t.family.endpointFrom model n.number) := by
  intro a ha
  have hendpoint : a.endpoint.number = t.family.endpointFrom model n.number := by
    rw [Behaviour.actions_endpoint a ha, place_endpoint, h]
    rfl
  exact congrArg some hendpoint

end Template

/-! ### Scenes -/

section
variable {before : List Entries} {fields : Entries}

theorem primaryGroup_of_group {g : Int} (h : Template.group? fields "group_id" = some g) :
    primaryGroup before fields = g := by
  rw [primaryGroup, getLastD_append, h]
  rfl

/-- The rows of scenes: one, and another one if there is a second scene. -/
theorem rows_of_scenesAsked {rows : List InputAction} {n : Numeral}
    (h : List.Forall₂ InputAction.Recalls rows (scenesAsked before fields))
    (hn : Template.number? fields "scene_id" = some n) :
    ∃ first rest, rows = first :: rest ∧
      first.Recalls ⟨primaryGroup before fields, n.number⟩ ∧
      ∀ m, Template.number? fields "scene_id_2" = some m →
        ∃ second, rest = [second] ∧ second.Recalls ⟨secondaryGroup before fields, m.number⟩ := by
  unfold scenesAsked at h
  rw [hn] at h
  obtain ⟨first, rest, hfirst, hrest, rfl⟩ := List.forall₂_cons_right_iff.mp h
  refine ⟨first, rest, rfl, hfirst, fun m hm => ?_⟩
  rw [hm] at hrest
  obtain ⟨second, more, hsecond, hmore, rfl⟩ := List.forall₂_cons_right_iff.mp hrest
  obtain rfl := List.forall₂_nil_right_iff.mp hmore
  exact ⟨second, rfl, hsecond⟩

theorem secondaryGroup_of_group {g : Int} (h : Template.group? fields "group_id_2" = some g) :
    secondaryGroup before fields = g := by
  rw [secondaryGroup, h]
  rfl

end

namespace Template
variable {model : Model} {c : Cursor Numeral} {t : Template} {fields : Entries}
  {before : List Entries}

theorem group?_of_number? {key : String} {n : Numeral} (h : number? fields key = some n) :
    group? fields key = some n.number := by
  rw [group?, h]
  rfl

theorem Describes.scene_isSome (h : Describes fields t) (hscene : t.family.isScene) :
    (number? fields "scene_id").isSome := by
  have hread := h.readFrom
  unfold family at hscene
  cases hx : t.behaviour with
  | scene primary secondary | sceneSwitch primary secondary =>
    rw [hx] at hread
    obtain ⟨n, hn, -⟩ := Option.map_eq_some_iff.mp hread.1
    exact hn ▸ rfl
  | _ =>
    rw [hx] at hscene
    cases hscene

/-- The rows of a template hold what its fields give for them. -/
theorem Describes.holds (h : Describes fields t)
    (hscenes : ShowsScenes before fields (t.expansion model c).actions) :
    Holds model t.family fields (t.expansion model c).actions := by
  obtain ⟨-, hinput, hinputs, hendpoint⟩ := h.reads
  have hasks (hscene : t.family.isScene) :
      List.Forall₂ InputAction.Recalls (t.expansion model c).actions
        (scenesAsked before fields) := by
    rw [ShowsScenes, h.asksScene, if_pos hscene] at hscenes
    exact hscenes
  constructor
  case input =>
    intro hsingle
    refine h.1.given (by decide : ("input", 255) ∈ numberFields) fun n hn => ?_
    exact expansion_input (hinput.trans hn) hsingle
  case inputs =>
    intro hdouble hgiven
    obtain ⟨⟨m, n⟩, hpair⟩ := Option.isSome_iff_exists.mp (h.1.pair hgiven)
    obtain ⟨first, -, huses⟩ := expansion_pair model c hdouble
    rw [pair, hinputs, hpair] at huses
    exact ⟨m, n, hpair, huses⟩
  case firstInput =>
    intro hdouble hmissing
    refine h.1.given (by decide : ("input", 255) ∈ numberFields) fun n hn => ?_
    obtain ⟨first, hfirst, huses⟩ := expansion_pair model c hdouble
    have hnone : pair? fields = none := by
      rw [pair?, hmissing]
      rfl
    rw [pair, hinputs, hnone, hfirst n (hinput.trans hn)] at huses
    exact huses
  case endpoint =>
    refine h.1.given (by decide : ("endpoint", 255) ∈ numberFields) fun n hn => ?_
    exact expansion_endpoint (hendpoint.trans hn)
  case scene =>
    intro hscene
    obtain ⟨n, hn⟩ := Option.isSome_iff_exists.mp (h.scene_isSome hscene)
    obtain ⟨first, rest, hrows, hfirst, -⟩ := rows_of_scenesAsked (hasks hscene) hn
    refine ⟨first, rest, _, hrows, hfirst, fun _ => ⟨n, hn, rfl⟩, ?_⟩
    refine h.1.given (by decide : ("group_id", 65535) ∈ numberFields) fun m hm => ?_
    exact (primaryGroup_of_group (group?_of_number? hm)).symm
  case secondScene =>
    intro hscene
    obtain ⟨n, hn⟩ := Option.isSome_iff_exists.mp (h.scene_isSome hscene)
    obtain ⟨first, rest, hrows, -, hrest⟩ := rows_of_scenesAsked (hasks hscene) hn
    refine h.1.given (by decide : ("scene_id_2", 255) ∈ numberFields) fun m hm => ?_
    obtain ⟨second, rfl, hsecond⟩ := hrest m hm
    refine ⟨first, second, _, hrows, hsecond, rfl, ?_⟩
    refine h.1.given (by decide : ("group_id_2", 65535) ∈ numberFields) fun g hg => ?_
    exact (secondaryGroup_of_group (group?_of_number? hg)).symm

end Template

/-! ### The rate -/

/-- A command that moves the level, with switching or without. -/
def IsMove (command : Int) : Prop :=
  command = Template.moveCommand ∨ command = Template.moveWithOnOffCommand

namespace InputAction
variable {input endpoint : Numeral} {transition command : Int} {payload : List Numeral}

theorem moves_level (h : IsMove command) :
    (level input transition endpoint command payload).moves = true := by
  rcases h with rfl | rfl
  · rfl
  · rfl

theorem moves_onOff : (onOff input transition endpoint command).moves = false := rfl

theorem moves_stopMove : (stopMove input transition endpoint).moves = false := rfl

end InputAction

namespace Behaviour
variable {a b endpoint : Numeral} {group : Int} {d : Dimming}

/-- The rows of a dimmer that move the level are one up and one down, both at its rate. -/
theorem filter_moves {x : Behaviour} (hx : x = .dimmerSingle d ∨ x = .dimmerDouble d)
    (hup : IsMove d.up) (hdown : IsMove d.down) (n : Int) :
    MovesAt (x.actions a b endpoint group) n ↔ d.rate.number = n := by
  have hlast : ((x.actions a b endpoint group).filter InputAction.moves).map
      (fun r => r.row.getLast?) = [some d.rate.number, some d.rate.number] := by
    rcases hx with rfl | rfl
    all_goals
      simp only [actions, List.filter_cons, InputAction.moves_onOff, InputAction.moveUp,
        InputAction.moves_level hup, InputAction.moveDown, InputAction.moves_level hdown,
        InputAction.moves_stopMove]
      rfl
  rw [MovesAt, hlast]
  simp

end Behaviour

namespace Template

/-- Both ways of a dimmer move the level. -/
theorem dimmingOf_moves (fields : Entries) (rate : Option Numeral) :
    IsMove (dimmingOf fields rate).up ∧ IsMove (dimmingOf fields rate).down := by
  have hcommand (never : Bool) : IsMove (if never then moveCommand else moveWithOnOffCommand) := by
    cases never
    · exact .inr rfl
    · exact .inl rfl
  exact ⟨hcommand _, hcommand _⟩

variable {fields : Entries} {t : Template} {model : Model} {c : Cursor Numeral}

/-- A dimmer moves at the rate that is given, or at the default one in place of none and of zero. -/
theorem dimmingOf_rate (fields : Entries) (rate : Option Numeral) :
    (dimmingOf fields rate).rate.number =
      rate.elim defaultRate fun n => if n.number = 0 then defaultRate else n.number := by
  unfold dimmingOf
  cases rate with
  | none => rfl
  | some n => exact apply_ite Numeral.number _ _ _

/-- A dimmer has the commands and the rate of its fields. -/
theorem Describes.dimmer (h : Describes fields t) (hdims : t.family.isDimmer) :
    t.behaviour = .dimmerSingle (dimmingOf fields (number? fields "rate")) ∨
      t.behaviour = .dimmerDouble (dimmingOf fields (number? fields "rate")) := by
  have hread := h.readFrom
  unfold family at hdims
  cases hx : t.behaviour with
  | dimmerSingle d =>
    rw [hx] at hread
    exact .inl (congrArg _ hread)
  | dimmerDouble d =>
    rw [hx] at hread
    exact .inr (congrArg _ hread)
  | _ =>
    rw [hx] at hdims
    cases hdims

theorem Describes.movesAt_iff (h : Describes fields t) (hdims : t.family.isDimmer) (n : Int) :
    MovesAt (t.expansion model c).actions n ↔
      (dimmingOf fields (number? fields "rate")).rate.number = n := by
  obtain ⟨hup, hdown⟩ := dimmingOf_moves fields (number? fields "rate")
  exact Behaviour.filter_moves (h.dimmer hdims) hup hdown n

theorem Describes.holdsRate (h : Describes fields t) :
    HoldsRate t.family fields (t.expansion model c).actions := by
  constructor
  case given =>
    intro hdims
    refine h.1.given (by decide : ("rate", 255) ∈ numberFields) fun n hn => ?_
    rw [h.movesAt_iff hdims, dimmingOf_rate, hn]
    change (if n.number = 0 then defaultRate else n.number) = n.number ↔ n.number ≠ 0
    split
    · next hzero =>
      rw [hzero]
      decide
    · next hpos => exact iff_of_true rfl hpos
  case missing =>
    intro hdims hmissing
    have hnone : number? fields "rate" = none := by
      rw [number?, hmissing]
      rfl
    rw [h.movesAt_iff hdims, dimmingOf_rate, hnone]
    rfl

end Template

/-! ### Lists of templates -/

/-- Each template of a list that compiles has what its fields give in its rows, and a dimmer the
rate too exactly if that is not zero. -/
theorem given_fields_kept {templates name : Value} {actions : List InputAction}
    (h : (compileInputActions templates name).outcome = .ok actions) :
    ∃ model p, Model.ofValue name = .ok model ∧ templateItems templates = .ok (p.map Value.dict) ∧
      actions = (blocks model p).flatten ∧ (blocks model p).length = p.length ∧
      ∀ (k : Nat) fields, p[k]? = some fields → ∃ family block,
        Template.family? fields = some family ∧ (blocks model p)[k]? = some block ∧
        Template.Holds model family fields block ∧ Template.HoldsRate family fields block := by
  obtain ⟨model, p, ts, hmodel, hitems, hp, hfits, hblocks, hactions⟩ := exists_blocks h
  refine ⟨model, p, hmodel, hitems, hactions, ?_, ?_⟩
  · rw [hblocks, List.length_map, length_expansions, hp.length_eq]
  · intro k fields hk
    obtain ⟨t, c, ht, hexpansion, hgroup⟩ := exists_expansion hp hk
    have hscenes := ht.showsScenes hgroup (hfits _ (List.mem_of_getElem? hexpansion))
    refine ⟨t.family, _, ht.reads.1, ?_, ht.holds hscenes, ht.holdsRate⟩
    rw [hblocks, List.getElem?_map, hexpansion]
    rfl

/-- A covering on the control unit with both of its inputs, a dimmer with the highest rate, and
scenes with the lowest and the highest numbers. -/
def boundedTemplates : List Entries := [
  [("type", .str "cover"), ("inputs", .list [.int 255, .int 0]), ("endpoint", .int 4)],
  [("type", .str "dimmer_single"), ("rate", .int 255), ("input", .int 0), ("endpoint", .int 0)],
  [("type", .str "scene"), ("scene_id", .int 0), ("group_id", .int 65535), ("scene_id_2", .int 255),
    ("group_id_2", .int 0)]]

/-- Their rows. -/
def boundedRows : List InputAction :=
  Behaviour.cover.actions (.plain 255) (.plain 0) (.plain 8) 0 ++
    (Behaviour.dimmerSingle ⟨5, 5, .plain 255⟩).actions (.plain 0) (.plain 0) (.plain 0) 0 ++
    Behaviour.scenePair (.plain 1) (.plain 1) 0 0x07 0x06 ⟨.plain 0, some 65535⟩
      (some ⟨.plain 255, some 0⟩)

theorem given_fields_kept_bounds :
    (compileInputActions (.list (boundedTemplates.map Value.dict)) (.str "C4")).outcome =
      .ok boundedRows ∧
    ∃ model p, Model.ofValue (.str "C4") = .ok model ∧
      templateItems (.list (boundedTemplates.map Value.dict)) = .ok (p.map Value.dict) ∧
      boundedRows = (blocks model p).flatten ∧ (blocks model p).length = p.length ∧
      ∀ (k : Nat) fields, p[k]? = some fields → ∃ family block,
        Template.family? fields = some family ∧ (blocks model p)[k]? = some block ∧
        Template.Holds model family fields block ∧ Template.HoldsRate family fields block := by
  have hrows : (compileInputActions (.list (boundedTemplates.map Value.dict)) (.str "C4")).outcome =
    .ok boundedRows := rfl
  exact ⟨hrows, given_fields_kept hrows⟩

/-- A dimmer that asks for rate zero moves at the default rate. -/
theorem zero_rate_lost : ¬ ∀ (p : List Entries) (name : Value) (actions : List InputAction),
    compiled name p = .ok actions → ∃ model, Model.ofValue name = .ok model ∧
      ∀ (k : Nat) fields, p[k]? = some fields → ∃ family block,
        Template.family? fields = some family ∧ (blocks model p)[k]? = some block ∧
        (family.isDimmer → Template.Given fields "rate" (MovesAt block)) := by
  intro h
  obtain ⟨model, hmodel, hrates⟩ := h [[("type", .str "dimmer_single"), ("rate", .int 0)]]
    (.str "D1")
    ((Behaviour.dimmerSingle ⟨5, 5, .plain 50⟩).actions (.plain 0) (.plain 0) (.plain 2) 0) rfl
  cases hmodel
  obtain ⟨family, block, hfamily, hblock, hrate⟩ := hrates 0 _ rfl
  cases hfamily
  cases hblock
  obtain ⟨n, hn, hmoves⟩ := hrate rfl nofun
  cases hn
  have hrows : [some 50, some 50] = [some (0 : Int), some 0] := hmoves
  exact absurd hrows (by decide)

end Commissioning

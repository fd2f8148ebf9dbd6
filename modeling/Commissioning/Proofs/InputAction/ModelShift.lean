import Commissioning.Proofs.InputAction.Blocks
import Commissioning.Proofs.InputAction.CoverEndpoint

/-!
What the model of a device changes. It says where the first template stands, and each template that
names no endpoint takes the next one, so for a model that begins further on the rows are the same
but for their endpoints, up to the first template that names its own:

    asked for       –   –   –   7   –
    begins at 2     2   3   4   7   8
    begins at 3     3   4   5   7   8

Rows that fit further on fit here too. Coverings are left out where a control unit takes part, which
moves them.
-/
namespace Commissioning

/-! ### Rows and cursors further on -/

/-- A row that is sent from an endpoint `d` further on. -/
def InputAction.shift (d : Int) (a : InputAction) : InputAction :=
  { a with endpoint := a.endpoint.plus d }

/-- Its third number is all that changes. -/
theorem InputAction.shift_row (d : Int) (a : InputAction) :
    (a.shift d).row = a.row.set 2 (a.endpoint.number + d) := rfl

/-- A row that fits further on fits here. -/
theorem InputAction.rowFits_of_shift {d : Int} {a : InputAction} (hd : 0 ≤ d)
    (ha : 0 ≤ a.endpoint.number) (h : rowFits (a.shift d).row) : rowFits a.row := by
  have hback : a.row = (a.shift d).row.set 2 a.endpoint.number := by
    rw [shift_row, List.set_set]
    rfl
  rw [rowFits_iff] at h ⊢
  have hendpoint : IsOctet (a.endpoint.number + d) := h _ (List.mem_of_getElem? (i := 2) rfl)
  intro n hn
  rw [hback] at hn
  rcases List.mem_or_eq_of_mem_set hn with hn | rfl
  · exact h n hn
  · exact ⟨ha, Int.le_trans (Int.le_add_of_nonneg_right hd) hendpoint.2⟩

theorem Behaviour.actions_shift (a b endpoint : Numeral) (group d : Int) (x : Behaviour) :
    x.actions a b (endpoint.plus d) group =
      (x.actions a b endpoint group).map (InputAction.shift d) := by
  cases x with
  | scene primary secondary | sceneSwitch primary secondary => cases secondary <;> rfl
  | _ => rfl

/-- Only the control unit moves coverings. -/
theorem Cursor.place_endpoint {model : Model} {c : Cursor Numeral} {t : Template}
    (h : t.family.isCover → model ≠ .c4) :
    (c.place model t).endpoint = t.endpoint.getD c.endpoint := by
  change (if t.family.isCover then model.coverEndpoint _ else _) = _
  by_cases hcover : t.family.isCover
  · rw [if_pos hcover, Model.coverEndpoint, if_neg fun hc4 => h hcover hc4.1]
  · rw [if_neg hcover]

/-- A cursor that stands `d` endpoints further on than another one. -/
structure Cursor.Ahead (d : Int) (c c' : Cursor Numeral) : Prop where
  inputs : c'.inputs = c.inputs
  group : c'.group = c.group
  endpoint : c'.endpoint = c.endpoint.plus d
  nonneg : 0 ≤ c.endpoint.number

namespace Cursor.Ahead
variable {d : Int} {c c' : Cursor Numeral} {t : Template} {m n : Model}

theorem start (m n : Model) :
    (Cursor.start m).Ahead (n.startingEndpoint - m.startingEndpoint) (Cursor.start n) where
  inputs := rfl
  group := rfl
  endpoint := by
    have hsum : n.startingEndpoint =
      m.startingEndpoint + (n.startingEndpoint - m.startingEndpoint) := by omega
    exact congrArg Numeral.plain hsum
  nonneg := Int.le_of_lt (start_endpoint m)

theorem actions (h : c.Ahead d c') :
    c'.actions t = (c.actions t).map (InputAction.shift d) := by
  unfold Cursor.actions
  rw [h.inputs, h.group, h.endpoint]
  exact Behaviour.actions_shift ..

theorem leave (h : c.Ahead d c') : (c.leave t).Ahead d (c'.leave t) where
  inputs := by
    unfold Cursor.leave Cursor.advance
    rw [h.inputs]
  group := congrArg t.behaviour.groupAfter h.group
  endpoint := by
    have hnumber : c'.endpoint.number = c.endpoint.number + d := congrArg Numeral.number h.endpoint
    have hsum : c'.endpoint.number + 1 = c.endpoint.number + 1 + d := by omega
    exact congrArg Numeral.plain hsum
  nonneg := Int.le_add_one h.nonneg

/-- A template that names no endpoint is put further on. -/
theorem place (h : c.Ahead d c') (hmoved : t.family.isCover → m ≠ .c4 ∧ n ≠ .c4)
    (ht : t.endpoint = none) : (c.place m t).Ahead d (c'.place n t) := by
  have hhere := place_endpoint (c := c) fun hcover => (hmoved hcover).1
  have hthere := place_endpoint (c := c') fun hcover => (hmoved hcover).2
  rw [ht] at hhere hthere
  constructor
  case inputs =>
    unfold Cursor.place
    rw [h.inputs]
  case group => exact h.group
  case endpoint =>
    rw [hhere, hthere]
    exact h.endpoint
  case nonneg =>
    rw [hhere]
    exact h.nonneg

end Cursor.Ahead

/-- Where the cursors for two models stand at the same inputs, a template is put in one place for
both if it names its endpoint or they stand at one. -/
theorem Cursor.place_congr {c c' : Cursor Numeral} {t : Template} {m n : Model}
    (hinputs : c'.inputs = c.inputs) (hgroup : c'.group = c.group)
    (hendpoint : t.endpoint.isSome ∨ c'.endpoint = c.endpoint)
    (hmoved : t.family.isCover → m ≠ .c4 ∧ n ≠ .c4) : c'.place n t = c.place m t := by
  have hplace : (c'.place n t).endpoint = (c.place m t).endpoint := by
    rw [place_endpoint fun hcover => (hmoved hcover).1,
      place_endpoint fun hcover => (hmoved hcover).2]
    rcases hendpoint with hnames | heq
    · obtain ⟨e, he⟩ := Option.isSome_iff_exists.mp hnames
      rw [he]
      rfl
    · rw [heq]
  have hplaceInputs : (c'.place n t).inputs = (c.place m t).inputs := by
    unfold Cursor.place
    rw [hinputs]
  exact Cursor.mk.injEq .. |>.mpr ⟨hplaceInputs, hplace, hgroup⟩

/-! ### Lists for two models -/

/-- Fields that name no endpoint. -/
def Template.leavesEndpoint (fields : Entries) : Bool := (fields.get "endpoint").isNull

/-- Two models that put the coverings of templates where these or the cursor say. -/
def LeaveCoverings (m n : Model) (p : List Entries) : Prop :=
  ∀ fields ∈ p, Template.AsksCovering fields → m ≠ .c4 ∧ n ≠ .c4

namespace Template
variable {fields : Entries} {t : Template} {m n : Model}

theorem Describes.endpoint_none (h : Describes fields t) (hleaves : leavesEndpoint fields) :
    t.endpoint = none := by
  obtain ⟨-, -, -, hendpoint⟩ := h.reads
  rw [hendpoint, number?, Value.isNull_iff.mp hleaves]
  rfl

theorem Describes.endpoint_isSome (h : Describes fields t) (hnames : ¬ leavesEndpoint fields) :
    t.endpoint.isSome := by
  obtain ⟨-, -, -, hendpoint⟩ := h.reads
  rw [hendpoint]
  exact h.1.isSome (by decide : ("endpoint", 255) ∈ numberFields)
    fun hnull => hnames (Value.isNull_iff.mpr hnull)

theorem Describes.asksCovering (h : Describes fields t) (hcover : t.family.isCover) :
    AsksCovering fields :=
  ⟨t.family, h.reads.1, hcover⟩

/-- A template that is put in one place for two models gives the same there. -/
theorem step_of_place {c c' : Cursor Numeral} (h : c'.place n t = c.place m t) :
    t.expansion n c' = t.expansion m c ∧ t.after n c' = t.after m c := by
  unfold expansion after
  rw [h]
  exact ⟨rfl, rfl⟩

/-- Rows that fit further on fit here. -/
theorem expansion_fits {d : Int} {c c' : Cursor Numeral}
    (h : (c.place m t).Ahead d (c'.place n t)) (hd : 0 ≤ d) (hfits : (t.expansion n c').Fits) :
    (t.expansion m c).Fits := by
  intro a ha
  have hendpoint : a.endpoint = (c.place m t).endpoint := Behaviour.actions_endpoint a ha
  refine InputAction.rowFits_of_shift hd (hendpoint ▸ h.nonneg) (hfits _ ?_)
  change a.shift d ∈ (c'.place n t).actions t
  rw [h.actions]
  exact List.mem_map_of_mem ha

end Template

namespace Compiles
variable {m n : Model} {c c' e' : Cursor Numeral} {d : Int} {p s : List Entries}
  {rows : List InputAction}

/-- From one cursor, templates compile alike for both models. -/
theorem alike (h : Compiles n c p rows e') (hp : LeaveCoverings m n p) :
    Compiles m c p rows e' := by
  induction h with
  | nil c => exact .nil c
  | @cons c e' fields t rest rows ht hfits _ ih =>
    obtain ⟨hhead, hrest⟩ := List.forall_mem_cons.mp hp
    have hplace : c.place n t = c.place m t :=
      Cursor.place_congr rfl rfl (.inr rfl) fun hcover => hhead (ht.asksCovering hcover)
    obtain ⟨hexpansion, hafter⟩ := Template.step_of_place hplace
    rw [hexpansion] at hfits ⊢
    exact .cons ht hfits (hafter ▸ ih hrest)

/-- Templates that name no endpoint compile here if they compile further on, and their rows differ
in the endpoint. -/
theorem ahead (h : Compiles n c' p rows e') (hc : c.Ahead d c') (hd : 0 ≤ d)
    (hleaves : ∀ fields ∈ p, Template.leavesEndpoint fields) (hp : LeaveCoverings m n p) :
    ∃ front e, Compiles m c p front e ∧ e.Ahead d e' ∧ rows = front.map (InputAction.shift d) := by
  induction h generalizing c with
  | nil c' => exact ⟨[], c, .nil c, hc, rfl⟩
  | @cons c' e' fields t rest rows ht hfits _ ih =>
    obtain ⟨hhead, hrest⟩ := List.forall_mem_cons.mp hp
    obtain ⟨hleavesHead, hleavesRest⟩ := List.forall_mem_cons.mp hleaves
    have hplace : (c.place m t).Ahead d (c'.place n t) :=
      hc.place (fun hcover => hhead (ht.asksCovering hcover)) (ht.endpoint_none hleavesHead)
    obtain ⟨front, e, hfront, hends, rfl⟩ := ih hplace.leave hleavesRest hrest
    refine ⟨_, e, .cons ht (Template.expansion_fits hplace hd hfits) hfront, hends, ?_⟩
    rw [List.map_append]
    exact congrArg (· ++ _) hplace.actions

/-- From a template on that names its endpoint, templates compile alike here and further on. -/
theorem named (h : Compiles n c' s rows e') (hc : c.Ahead d c')
    (hnames : ∀ fields ∈ s.head?, ¬ Template.leavesEndpoint fields) (hs : LeaveCoverings m n s) :
    ∃ e, Compiles m c s rows e := by
  cases h with
  | nil c' => exact ⟨c, .nil c⟩
  | @cons c' e' fields t rest rows ht hfits htail =>
    obtain ⟨hhead, hrest⟩ := List.forall_mem_cons.mp hs
    have hplace : c'.place n t = c.place m t :=
      Cursor.place_congr hc.inputs hc.group (.inl (ht.endpoint_isSome (hnames fields rfl)))
        fun hcover => hhead (ht.asksCovering hcover)
    obtain ⟨hexpansion, hafter⟩ := Template.step_of_place hplace
    rw [hexpansion] at hfits ⊢
    rw [hafter] at htail
    exact ⟨e', .cons ht hfits (htail.alike hrest)⟩

end Compiles

theorem Model.ofValue_name (m : Model) : ofValue (.str m.name) = .ok m := by
  rw [ofValue, ofName?_name]

/-- What compiles for a model that begins further on compiles for one that begins before it, if
neither moves a covering of the templates. The rows differ in their endpoints only, and in these
only up to the first template that names its own. -/
theorem model_shifts_endpoints {templates : Value} {m n : Model} {rows : List InputAction}
    (hstart : m.startingEndpoint ≤ n.startingEndpoint)
    (hcover : (m ≠ .c4 ∧ n ≠ .c4) ∨ ∀ vs, templateItems templates = .ok vs → ∀ fields,
      .dict fields ∈ vs → ¬ Template.AsksCovering fields)
    (h : (compileInputActions templates (.str n.name)).outcome = .ok rows) :
    ∃ (p : List Entries) (front back : List InputAction),
      templateItems templates = .ok (p.map Value.dict) ∧
      compiled (.str m.name) (p.takeWhile Template.leavesEndpoint) = .ok front ∧
      (compileInputActions templates (.str m.name)).outcome = .ok (front ++ back) ∧
      rows = front.map (InputAction.shift (n.startingEndpoint - m.startingEndpoint)) ++ back := by
  obtain ⟨_, p, _, -, hitems, -⟩ := exists_blocks h
  have hleave : LeaveCoverings m n p := by
    intro fields hfields hasks
    rcases hcover with hmoved | hnone
    · exact hmoved
    · exact absurd hasks (hnone _ hitems fields (List.mem_map_of_mem hfields))
  rw [outcome_eq_compiled _ hitems] at h ⊢
  obtain ⟨model, hmodel, e', hall⟩ := compiled_eq_ok.mp h
  cases (Model.ofValue_name n).symm.trans hmodel
  have hsplit := List.takeWhile_append_dropWhile (p := Template.leavesEndpoint) (l := p)
  rw [← hsplit] at hall hleave
  obtain ⟨hleaveFront, hleaveBack⟩ := List.forall_mem_append.mp hleave
  obtain ⟨_, back, d', hfront', hback', rfl⟩ := compiles_append.mp hall
  -- up to the first endpoint that is named the cursors stay apart, and there they meet
  obtain ⟨front, d, hfront, hahead, rfl⟩ := hfront'.ahead (Cursor.Ahead.start m n) (by omega)
    (List.all_eq_true.mp List.all_takeWhile) hleaveFront
  have hnames : ∀ fields ∈ (p.dropWhile Template.leavesEndpoint).head?,
      ¬ Template.leavesEndpoint fields := by
    intro fields hfields
    have hfirst := List.head?_dropWhile_not Template.leavesEndpoint p
    rw [hfields] at hfirst
    exact Bool.not_eq_true _ ▸ hfirst
  obtain ⟨e, hback⟩ := hback'.named hahead hnames hleaveBack
  refine ⟨p, front, back, hitems, ?_, ?_, rfl⟩
  · exact compiled_eq_ok.mpr ⟨m, m.ofValue_name, d, hfront⟩
  · refine compiled_eq_ok.mpr ⟨m, m.ofValue_name, e, ?_⟩
    rw [← hsplit]
    exact compiles_append.mpr ⟨front, back, d, hfront, hback, rfl⟩

/-- Two switches, a third one that names its endpoint, and one after it. -/
def switches : List Value :=
  [.dict [("type", .str "toggle")], .dict [("type", .str "toggle_switch")],
    .dict [("type", .str "on"), ("endpoint", .int 7)], .dict [("type", .str "off")]]

/-- The rows of the first two, of which the first one is sent from `endpoint`. -/
def switchRows (endpoint : Int) : List InputAction :=
  Behaviour.toggle.actions (.plain 0) (.plain 0) (.plain endpoint) 0 ++
    Behaviour.toggleSwitch.actions (.plain 1) (.plain 1) (.plain (endpoint + 1)) 0

/-- The rows of the other two. -/
def namedRows : List InputAction :=
  Behaviour.on.actions (.plain 2) (.plain 2) (.plain 7) 0 ++
    Behaviour.off.actions (.plain 3) (.plain 3) (.plain 8) 0

theorem model_shifts_endpoints_switches :
    Model.c4.startingEndpoint ≤ Model.s2.startingEndpoint ∧
    (∀ vs, templateItems (.list switches) = .ok vs → ∀ fields, .dict fields ∈ vs →
      ¬ Template.AsksCovering fields) ∧
    (compileInputActions (.list switches) (.str "S2")).outcome = .ok (switchRows 3 ++ namedRows) ∧
    (compileInputActions (.list switches) (.str "C4")).outcome = .ok (switchRows 1 ++ namedRows) ∧
    ∃ (p : List Entries) (front back : List InputAction),
      templateItems (.list switches) = .ok (p.map Value.dict) ∧
      compiled (.str "C4") (p.takeWhile Template.leavesEndpoint) = .ok front ∧
      (compileInputActions (.list switches) (.str "C4")).outcome = .ok (front ++ back) ∧
      switchRows 3 ++ namedRows = front.map (InputAction.shift 2) ++ back := by
  have hstart : Model.c4.startingEndpoint ≤ Model.s2.startingEndpoint := by decide
  have hnone : ∀ vs, templateItems (.list switches) = .ok vs → ∀ fields, .dict fields ∈ vs →
      ¬ Template.AsksCovering fields := by
    rintro vs hvs fields hfields ⟨f, hf, hcover⟩
    cases hvs
    simp only [switches, List.mem_cons, Value.dict.injEq, List.not_mem_nil, or_false] at hfields
    rcases hfields with rfl | rfl | rfl | rfl
    all_goals
      cases hf
      cases hcover
  have hrows : (compileInputActions (.list switches) (.str "S2")).outcome =
    .ok (switchRows 3 ++ namedRows) := rfl
  exact ⟨hstart, hnone, hrows, rfl,
    model_shifts_endpoints (m := .c4) (n := .s2) hstart (.inr hnone) hrows⟩

end Commissioning

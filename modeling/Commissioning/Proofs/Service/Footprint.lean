import Commissioning.Proofs.Covering.Exchanges
import Commissioning.Proofs.Device.Footprint
import Commissioning.Proofs.DeviceSetup.Arrays
import Commissioning.Proofs.DeviceSetup.Requests
import Commissioning.Proofs.Service.Announcement
import Commissioning.Proofs.Service.Opening

/-!
What each service may do to a device: the clusters that it talks to, whether it writes, and which of
its calls carry the manufacturer's code.

    service           basic     covering      setup     dimmer      level
    covering                    read, write
    setup             firmware                read, write
    dimmer                                              read, write read, write
    code              never     own           never     never       always

The minimum level has the same number as another attribute of its cluster, and only the code tells
them apart, so one call without it would reach the wrong attribute. Every call comes from a request,
and what a procedure may ask for is known before it runs.
-/
namespace Commissioning

/-! ### Requests of the services -/

namespace Covering
open Attribute Procedure

/-- A request while a covering is configured: one of a phase, or one for the report. -/
inductive Asks : Request → Prop where
  | phase {p : Phase} {q : Request} (h : p.Asks q) : Asks q
  | report {q : Request} (h : ReportRead q) : Asks q

theorem sends_configure {given : Entries} {o : Options} (ho : o.Of given) (verbose : Bool) :
    Sends Asks (configure o verbose) := by
  rw [configure_eq]
  refine sends_bind sends_clock fun start => ?_
  refine sends_bind (sends_performPhases ho _ 0 fun _ _ _ => .phase) fun _ => ?_
  exact (asks_conclude o start).mono fun _ => .report

end Covering

namespace Dimmer
open Attribute Procedure

/-- A question for the settings of a dimmer. -/
inductive SettingRead : Request → Prop where
  | setup {name : String} (h : name ∈ [capabilities, status, mode]) :
    SettingRead (.read .dimmerSetup [name] none)
  | level : SettingRead (.read .levelControl [minimumOnLevel] (some manufacturerCode))

/-- A request while a dimmer is configured. -/
inductive Asks : Request → Prop where
  | phase (v : Value) : Asks (.write .dimmerSetup [(mode, v)] none)
  | level (v : Value) : Asks (.write .levelControl [(minimumOnLevel, v)] (some manufacturerCode))
  | setting {q : Request} (h : SettingRead q) : Asks q

theorem sends_read : Sends SettingRead Dimmer.read := by
  refine sends_bind (sends_send (.setup (by decide))) fun _ => ?_
  refine sends_bind (sends_send (.setup (by decide))) fun _ => ?_
  refine sends_bind (sends_send (.setup (by decide))) fun _ => ?_
  refine sends_bind (sends_send .level) fun level => ?_
  refine sends_bind (sends_ofOutcome _) fun _ => sends_bind (sends_ofOutcome _) fun _ => ?_
  refine sends_bind (sends_ofOutcome _) fun _ => ?_
  dsimp only
  split
  · exact sends_bind sends_pure fun _ => sends_pure
  · exact sends_bind (sends_ofOutcome _) fun _ => sends_pure

theorem sends_configure (phase minimum : Value) (verbose : Bool) :
    Sends Asks (configure phase minimum verbose) := by
  refine sends_bind (sends_ofOutcome _) fun s => sends_bind sends_clock fun _ => ?_
  have hphase : Sends Asks (writePhase (Level.ofVerbose verbose) s.phase) := by
    cases s.phase with
    | none => exact sends_pure
    | some phase => exact sends_bind (sends_request (.phase _)) fun _ => sends_note
  have hlevel : Sends Asks (writeLevel (Level.ofVerbose verbose) s.level) := by
    cases s.level with
    | none => exact sends_pure
    | some n => exact sends_bind (sends_request (.level _)) fun _ => sends_note
  refine sends_bind hphase fun _ => sends_bind hlevel fun _ => ?_
  refine sends_bind (sends_read.mono fun _ h => .setting h) fun _ => ?_
  exact sends_bind sends_clock fun _ => sends_bind sends_note fun _ => sends_pure

end Dimmer

namespace Service

/-- What a service may ask for. Services that only answer read arrays, and write none. -/
inductive Asks : Service → Request → Prop where
  | configureCovering {q : Request} (h : Covering.Asks q) : Asks .configureCovering q
  | readCovering {q : Request} (h : Covering.ReportRead q) : Asks .readCovering q
  | configureDeviceSetup {q : Request} (h : DeviceSetup.Asks (fun _ => True) q) :
    Asks .configureDeviceSetup q
  | readDeviceSetup {q : Request} (h : DeviceSetup.ArrayRequest (fun _ => False) q) :
    Asks .readDeviceSetup q
  | configureDimmer {q : Request} (h : Dimmer.Asks q) : Asks .configureDimmer q
  | readDimmer {q : Request} (h : Dimmer.SettingRead q) : Asks .readDimmer q

/-- The job of a call asks for what the service may ask for. -/
theorem sends_of_job {x : Service} {data : Value} {h : Hub} {g : Bool} {j : Job}
    (hj : (x.job data h g).outcome = .ok j) (verbose : Bool) :
    Procedure.Sends x.Asks (j.purpose.procedure verbose) := by
  obtain ⟨given, f, d, -, -, hf, -, hp, -⟩ := job_eq_ok.mp hj
  generalize j.purpose = p at hp
  cases x with
  | configureCovering =>
    obtain ⟨o, ho, hf⟩ := Logged.bind_outcome_eq_ok.mp hf
    cases hf
    cases hp
    obtain ⟨entries, -, hof⟩ := Covering.validate_ok ho
    exact (Covering.sends_configure hof verbose).mono fun _ h => .configureCovering h
  | readCovering =>
    cases hf
    cases hp
    exact Covering.sends_readReport.mono fun _ h => .readCovering h
  | configureDeviceSetup =>
    cases hf
    obtain ⟨model, -, hp⟩ := bind_eq_ok.mp hp
    cases hp
    have hsends : Procedure.Sends (DeviceSetup.Asks fun _ => True)
        (DeviceSetup.configure model .null (payloadsOf given) verbose) :=
      DeviceSetup.sends_configure fun _ _ _ _ _ _ _ _ _ => trivial
    exact hsends.mono fun _ h => .configureDeviceSetup h
  | readDeviceSetup =>
    cases hf
    cases hp
    exact DeviceSetup.sends_read.mono fun _ h => .readDeviceSetup h
  | configureDimmer =>
    cases hf
    obtain ⟨name, -, hp⟩ := bind_eq_ok.mp hp
    obtain ⟨_, -, hp⟩ := bind_eq_ok.mp hp
    cases hp
    exact (Dimmer.sends_configure _ _ verbose).mono fun _ h => .configureDimmer h
  | readDimmer =>
    cases hf
    obtain ⟨name, -, hp⟩ := bind_eq_ok.mp hp
    obtain ⟨_, -, hp⟩ := bind_eq_ok.mp hp
    cases hp
    exact Dimmer.sends_read.mono fun _ h => .readDimmer h

end Service

/-! ### Calls of the services -/

namespace ClusterCall

/-- The attributes that a call writes. -/
def written : ClusterCall → List String
  | .write values _ => values.map Prod.fst
  | .writeStructured records _ => records.map fun r => ClusterState.recordName r.attrId
  | .read .. | .command _ => []

/-- The attributes that a call names. -/
def names : ClusterCall → List String
  | .read names _ => names
  | call => call.written

/-- The manufacturer's code that a call carries. -/
def manufacturer : ClusterCall → Option Int
  | .read _ m | .write _ m | .writeStructured _ m => m
  | .command _ => none

/-- A call that only reads. -/
def IsRead (call : ClusterCall) : Prop := ∃ names m, call = .read names m

theorem typedValues_keys {values typed : Entries} (h : typedValues values = .ok typed) :
    typed.map Prod.fst = values.map Prod.fst := by
  induction values generalizing typed with
  | nil =>
    cases h
    rfl
  | cons e values ih =>
    obtain ⟨key, v⟩ := e
    obtain ⟨v', -, h⟩ := bind_eq_ok.mp h
    obtain ⟨rest, hrest, h⟩ := bind_eq_ok.mp h
    cases h
    rw [List.map_cons, List.map_cons, ih hrest]

end ClusterCall

namespace Service

/-- The clusters that a service talks to. -/
def clusters : Service → List Cluster
  | configureCovering | readCovering => [.windowCovering]
  | configureDeviceSetup => [.basic, .deviceSetup]
  | readDeviceSetup => [.deviceSetup]
  | configureDimmer | readDimmer => [.dimmerSetup, .levelControl]

/-- Services for dimmers only. -/
def isDimmer : Service → Bool
  | configureDimmer | readDimmer => true
  | _ => false

/-- The calls that a service may make to a cluster. -/
structure Frame (x : Service) (c : Cluster) (call : ClusterCall) : Prop where
  cluster : c ∈ x.clusters
  /-- A service that only answers does not write and sends no command. -/
  answers : x.onlyAnswers → call.IsRead
  /-- Nothing but the firmware is asked for in the basic cluster. -/
  firmware : c = .basic → ∃ m, call = .read [Attribute.softwareBuild] m
  /-- The minimum level is always the manufacturer's own. -/
  minimum : Attribute.minimumOnLevel ∈ call.names → call.manufacturer = some manufacturerCode
  /-- Other clusters than those of coverings and levels have no attributes of the manufacturer's. -/
  plain : c ∈ [Cluster.basic, .deviceSetup, .dimmerSetup] → call.manufacturer = none
  /-- What is written to a covering is a base attribute, without the code, or an attribute that may be
  overridden, with the code; the limits and steps that are reset are of the second kind. -/
  covering : c = .windowCovering → ∀ key ∈ call.written,
    key ∈ Covering.baseAttributes ∧ call.manufacturer = none ∨
      key ∉ Covering.baseAttributes ∧ key ∈ Covering.overrideAttributes ∧
        call.manufacturer = some manufacturerCode

namespace Frame
variable {x : Service} {c : Cluster} {names : List String} {values : Entries} {m : Option Int}
  {call : ClusterCall}

/-- A read is in the frame if it has the code where it has to, and nowhere else. -/
theorem read (hc : c ∈ x.clusters) (hfirmware : c = .basic → names = [Attribute.softwareBuild])
    (hminimum : Attribute.minimumOnLevel ∈ names → m = some manufacturerCode)
    (hplain : c ∈ [Cluster.basic, .deviceSetup, .dimmerSetup] → m = none)
    (hcall : ClusterCall.ofRequest (.read c names m) = .ok call) : x.Frame c call := by
  cases hcall
  exact {
    cluster := hc
    answers := fun _ => ⟨names, m, rfl⟩
    firmware := fun h => ⟨m, by rw [hfirmware h]⟩
    minimum := hminimum
    plain := hplain
    covering := fun _ => List.forall_mem_nil _ }

/-- So is a write, which keeps the names of its values when they are made ready to be sent. -/
theorem write (hc : c ∈ x.clusters) (hchanges : x.onlyAnswers = false) (hbasic : c ≠ .basic)
    (hminimum : Attribute.minimumOnLevel ∈ values.map Prod.fst → m = some manufacturerCode)
    (hplain : c ∈ [Cluster.basic, .deviceSetup, .dimmerSetup] → m = none)
    (hcovering : c = .windowCovering → ∀ key ∈ values.map Prod.fst,
      key ∈ Covering.baseAttributes ∧ m = none ∨
        key ∉ Covering.baseAttributes ∧ key ∈ Covering.overrideAttributes ∧
          m = some manufacturerCode)
    (hcall : ClusterCall.ofRequest (.write c values m) = .ok call) : x.Frame c call := by
  obtain ⟨typed, htyped, hcall⟩ := bind_eq_ok.mp hcall
  cases hcall
  rw [← ClusterCall.typedValues_keys htyped] at hminimum hcovering
  exact {
    cluster := hc
    answers := fun h => by simp [hchanges] at h
    firmware := fun h => absurd h hbasic
    minimum := hminimum
    plain := hplain
    covering := hcovering }

end Frame

/-! ### From requests to calls -/

section
variable {call : ClusterCall}

theorem frame_structured {w : DeviceSetup.ArrayWrite}
    (hcall : ClusterCall.ofRequest (.writeStructured .deviceSetup [w.asRecord] none) = .ok call) :
    configureDeviceSetup.Frame .deviceSetup call := by
  obtain ⟨records, hrecords, hcall⟩ := bind_eq_ok.mp hcall
  cases hcall
  have hnames : records.map (fun r => ClusterState.recordName r.attrId) = [w.target.name] := by
    cases mapM_eq_ok.mp hrecords with
    | cons hrecord hrest =>
      cases hrest
      obtain ⟨type, -, hrecord⟩ := bind_eq_ok.mp hrecord
      obtain ⟨array, -, hrecord⟩ := bind_eq_ok.mp hrecord
      obtain ⟨id, hid, hrecord⟩ := bind_eq_ok.mp hrecord
      cases hrecord
      cases w.target.checkWord_id.symm.trans hid
      rw [List.map_singleton, w.target.recordName_id]
  have hminimum : Attribute.minimumOnLevel ∉ [w.target.name] := by
    cases w.target <;> decide
  exact {
    cluster := by decide
    answers := fun h => by cases h
    firmware := fun h => by cases h
    minimum := fun h => absurd (hnames ▸ h) hminimum
    plain := fun _ => rfl
    covering := fun h => by cases h }

theorem frame_arrays {W : DeviceSetup.ArrayWrite → Prop} {x : Service} {q : Request}
    (hx : x = .configureDeviceSetup ∨ x = .readDeviceSetup ∧ ∀ w, ¬ W w)
    (h : DeviceSetup.ArrayRequest W q) (hcall : ClusterCall.ofRequest q = .ok call) :
    x.Frame q.cluster call := by
  have hminimum (t : DeviceSetup.ArrayAttribute) : Attribute.minimumOnLevel ∉ [t.name] := by
    cases t <;> decide
  cases h with
  | read t =>
    have hc : .deviceSetup ∈ x.clusters := by
      rcases hx with rfl | ⟨rfl, -⟩ <;> decide
    exact .read hc (fun h => by cases h) (fun h => absurd h (hminimum t)) (fun _ => rfl) hcall
  | @plain w h _ =>
    rcases hx with rfl | ⟨-, hno⟩
    · have hnames : Attribute.minimumOnLevel ∉ w.asValues.map Prod.fst := hminimum w.target
      exact Frame.write (c := .deviceSetup) (by decide) rfl (by decide)
        (fun h => absurd h hnames) (fun _ => rfl) (fun h => by cases h) hcall
    · exact absurd h (hno w)
  | @structured w h _ =>
    rcases hx with rfl | ⟨-, hno⟩
    · exact frame_structured hcall
    · exact absurd h (hno w)

/-- A base attribute is written without the code. -/
theorem frame_base {key : String} {v : Value} (hkey : key ∈ Covering.baseAttributes)
    (hcall : ClusterCall.ofRequest (Covering.attributeWrite key v none) = .ok call) :
    configureCovering.Frame .windowCovering call := by
  refine .write (by decide) rfl (by decide) (fun h => ?_) (by decide) (fun _ => ?_) hcall
  · cases List.mem_singleton.mp h
    exact absurd hkey (by decide)
  · exact List.forall_mem_singleton.mpr (.inl ⟨hkey, rfl⟩)

theorem override_not_base : ∀ key ∈ Covering.overrideAttributes, key ∉ Covering.baseAttributes := by
  decide

/-- Attributes that may be overridden are written with the code. -/
theorem frame_own {values : Entries}
    (hkeys : ∀ key ∈ values.map Prod.fst, key ∈ Covering.overrideAttributes)
    (hcall : ClusterCall.ofRequest (.write .windowCovering values (some manufacturerCode)) =
      .ok call) : configureCovering.Frame .windowCovering call := by
  refine .write (by decide) rfl (by decide) (fun _ => rfl) (by decide) (fun _ key hkey => ?_) hcall
  exact .inr ⟨override_not_base key (hkeys key hkey), hkeys key hkey, rfl⟩

theorem frame_command {name : String}
    (hcall : ClusterCall.ofRequest (.command .windowCovering name) = .ok call) :
    configureCovering.Frame .windowCovering call := by
  cases hcall
  exact {
    cluster := by decide
    answers := fun h => by cases h
    firmware := fun h => by cases h
    minimum := fun h => absurd h List.not_mem_nil
    plain := fun _ => rfl
    covering := fun _ => List.forall_mem_nil _ }

theorem frame_phase {p : Covering.Phase} {q : Request} (h : p.Asks q)
    (hcall : ClusterCall.ofRequest q = .ok call) : configureCovering.Frame q.cluster call := by
  cases h with
  | findMode => exact .read (by decide) (fun h => by cases h) (by decide) (by decide) hcall
  | settleMode n => exact frame_base (by decide) hcall
  | baseMode n => exact frame_base (by decide) hcall
  | base key v hk hm => exact frame_base hk hcall
  | drive p hp name => exact frame_command hcall
  | poll p hp => exact .read (by decide) (fun h => by cases h) (by decide) (by decide) hcall
  | reset => exact frame_own (by decide) hcall
  | enable n => exact frame_base (by decide) hcall
  | override key v hk =>
    have hkeys : ∀ k ∈ [(key, v)].map Prod.fst, k ∈ Covering.overrideAttributes :=
      List.forall_mem_singleton.mpr hk
    exact frame_own hkeys hcall
  | finalize n => exact frame_base (by decide) hcall

theorem frame_report {x : Service} {q : Request} (hx : .windowCovering ∈ x.clusters)
    (h : Covering.ReportRead q) (hcall : ClusterCall.ofRequest q = .ok call) :
    x.Frame q.cluster call := by
  cases h
  all_goals exact .read hx (fun h => by cases h) (by decide) (by decide) hcall

theorem frame_setting {x : Service} {q : Request} (hx : x.clusters = [.dimmerSetup, .levelControl])
    (h : Dimmer.SettingRead q) (hcall : ClusterCall.ofRequest q = .ok call) :
    x.Frame q.cluster call := by
  cases h with
  | @setup name hname =>
    have hc : .dimmerSetup ∈ x.clusters := hx ▸ by decide
    refine .read hc (fun h => by cases h) (fun h => ?_) (fun _ => rfl) hcall
    cases List.mem_singleton.mp h
    exact absurd hname (by decide)
  | level =>
    have hc : .levelControl ∈ x.clusters := hx ▸ by decide
    exact .read hc (fun h => by cases h) (fun _ => rfl) (by decide) hcall

/-- Every call that becomes of a request of a service is in its frame. -/
theorem Asks.frame {x : Service} {q : Request} (h : x.Asks q)
    (hcall : ClusterCall.ofRequest q = .ok call) : x.Frame q.cluster call := by
  cases h with
  | configureCovering h =>
    cases h with
    | phase h => exact frame_phase h hcall
    | report h => exact frame_report (by decide) h hcall
  | readCovering h => exact frame_report (by decide) h hcall
  | configureDeviceSetup h =>
    cases h with
    | build => exact .read (by decide) (fun _ => rfl) (by decide) (fun _ => rfl) hcall
    | array h => exact frame_arrays (.inl rfl) h hcall
  | readDeviceSetup h => exact frame_arrays (.inr ⟨rfl, fun _ h => h⟩) h hcall
  | configureDimmer h =>
    cases h with
    | phase v =>
      have hnames : Attribute.minimumOnLevel ∉ [(Attribute.mode, v)].map Prod.fst := by
        change Attribute.minimumOnLevel ∉ [Attribute.mode]
        decide
      exact Frame.write (c := .dimmerSetup) (by decide) rfl (by decide)
        (fun h => absurd h hnames) (fun _ => rfl) (fun h => by cases h) hcall
    | level v =>
      exact Frame.write (c := .levelControl) (by decide) rfl (by decide) (fun _ => rfl) (by decide)
        (fun h => by cases h) hcall
    | setting h => exact frame_setting rfl h hcall
  | readDimmer h => exact frame_setting rfl h hcall

end

end Service

/-! ### Sessions -/

/-- The device that a call names, in the state of a session. -/
def Session.Named (s : Session) (c : Call) (d : Device) : Prop :=
  ∃ given address, c.service.form.check c.data = .ok given ∧
    normalizedAddress (given.get Key.address) = .ok address ∧
    s.hub.find s.hasGateway address = .ok d

/-- A device that tells one of the models that dim. -/
def Device.Dims (d : Device) : Prop := ∃ m ∈ Model.dimmers, d.shortModel = .ok (some m.name)

theorem dims_of_require {d : Device} {name : Option String} {address : String}
    (hname : d.shortModel = .ok name) (h : Model.requireDimmer name address = .ok ()) :
    d.Dims := by
  cases name with
  | none => cases h
  | some n =>
    unfold Model.requireDimmer at h
    dsimp only at h
    split at h
    · next hn =>
      obtain ⟨m, hm, rfl⟩ := List.mem_map.mp (List.contains_iff_mem.mp hn)
      exact ⟨m, hm, hname⟩
    · cases h

/-- A service for dimmers becomes a job only on a device that dims. -/
theorem Service.dims_of_job {x : Service} (hx : x.isDimmer) {data : Value} {h : Hub} {g : Bool}
    {j : Job} (hj : (x.job data h g).outcome = .ok j) :
    ∃ given address d, x.form.check data = .ok given ∧
      normalizedAddress (given.get Key.address) = .ok address ∧ h.find g address = .ok d ∧
      d.Dims := by
  obtain ⟨given, f, d, hgiven, haddress, hf, hd, hp, -⟩ := job_eq_ok.mp hj
  refine ⟨given, j.address, d, hgiven, haddress, hd, ?_⟩
  have hrequired (p : Purpose) (hfd : f d = (do
      (Model.requireDimmer (← ofMismatch d.shortModel) j.address).mapError .access
      return p)) : d.Dims := by
    rw [hfd] at hp
    obtain ⟨name, hname, hp⟩ := bind_eq_ok.mp hp
    obtain ⟨_, hrequire, -⟩ := bind_eq_ok.mp hp
    exact dims_of_require (mapError_eq_ok.mp hname) (mapError_eq_ok.mp hrequire)
  cases x with
  | configureDimmer | readDimmer =>
    cases hf
    exact hrequired _ rfl
  | _ => cases hx

namespace Session
variable {s : Session} {t : Task} {j : Job} {i : Nat} {Q Q' : Request → Prop}

/-- All requests that a stage may still put are of one sort; what it may ask for before it starts is
not known yet. -/
def Within (Q : Request → Prop) : Stage → Prop
  | .waiting _ | .ended .. => True
  | .running _ _ activity => activity.Sends Q

theorem Within.mono {st : Stage} (h : Within Q st) (hq : ∀ q, Q q → Q' q) : Within Q' st := by
  cases st with
  | waiting start => trivial
  | running j began activity => exact Activity.Sends.mono h hq
  | ended finish outcome => trivial

/-- Where a job stands changes no call that has been made. -/
theorem settle_made (began : Nat) (r : Activity Entries × Hub) :
    (s.settle j began r).2.made = r.2.calls := by
  obtain ⟨activity, hub⟩ := r
  cases activity with
  | ended outcome =>
    change (Session.release (conclude _ j began outcome) j).hub.calls = _
    rw [(release_keeps _ j).1]
    rfl
  | pausing wake rest => rfl
  | calling wake x next => rfl

theorem settle_within (began : Nat) {r : Activity Entries × Hub} (hadds : s.hub.Adds Q r.2)
    (hsends : r.1.Sends Q) :
    s.hub.Adds Q (s.settle j began r).2.hub ∧ Within Q (s.settle j began r).1 := by
  refine ⟨hadds.trans (.of_eq (settle_made began r)), ?_⟩
  obtain ⟨activity, hub⟩ := r
  cases activity with
  | ended outcome => trivial
  | pausing wake rest => exact hsends
  | calling wake x next => exact hsends

theorem enter_within (hj : Procedure.Sends Q (j.purpose.procedure s.verbose)) :
    s.hub.Adds Q (s.enter j).2.hub ∧ Within Q (s.enter j).1 := by
  have hlaunch (s' : Session) (hhub : s'.hub = s.hub) (hverbose : s'.verbose = s.verbose) :
      s.hub.Adds Q (s'.launch j).2.hub ∧ Within Q (s'.launch j).1 := by
    rw [← hverbose] at hj
    obtain ⟨hadds, hsends⟩ := Activity.start_sends hj j.device s'.hub
    rw [← hhub]
    exact settle_within _ hadds hsends
  unfold enter
  split
  · exact hlaunch s rfl rfl
  · split
    · exact ⟨.of_eq rfl, trivial⟩
    · dsimp only
      split
      · exact ⟨.of_eq rfl, trivial⟩
      · exact ⟨.of_eq rfl, trivial⟩
      · exact hlaunch _ rfl rfl

/-- A task that is woken makes calls for requests of its service, if it runs or is about to. -/
theorem move_within {P : Prop} (h : Within (fun q => t.call.service.Asks q ∧ P) t.stage) :
    let Q q := t.call.service.Asks q ∧ (P ∨ ∃ j, (s.jobOf t).outcome = .ok j)
    s.hub.Adds Q ((s.atWake t).move t).2.hub ∧ Within Q ((s.atWake t).move t).1 := by
  intro Q
  have hkeep : s.hub.Adds Q (s.atWake t).hub := .of_eq rfl
  cases hst : t.stage with
  | waiting start =>
    have hmove : (s.atWake t).move t = (s.atWake t).start t.call := by simp only [move, hst]
    rw [hmove]
    cases hjob : (s.jobOf t).outcome with
    | error e =>
      rw [start_of_error hjob]
      exact ⟨.of_eq rfl, trivial⟩
    | ok j =>
      rw [start_of_job hjob]
      have hsends : Procedure.Sends Q (j.purpose.procedure (s.atWake t).verbose) :=
        (Service.sends_of_job hjob _).mono fun q hq => ⟨hq, .inr ⟨j, hjob⟩⟩
      obtain ⟨hadds, hwithin⟩ := enter_within (s := (s.atWake t).write (s.jobOf t).log) hsends
      have hwrite : s.hub.Adds Q ((s.atWake t).write (s.jobOf t).log).hub := .of_eq rfl
      exact ⟨hwrite.trans hadds, hwithin⟩
  | running j began activity =>
    rw [hst] at h
    by_cases hc : t.isCancelled
    · rw [move_of_cancelled hst hc]
      refine ⟨hkeep.trans (.of_eq ?_), trivial⟩
      exact congrArg Hub.calls (release_keeps _ j).1
    · have hmove : (s.atWake t).move t = (s.atWake t).settle j began
          (activity.resume j.device (s.atWake t).hub) := by
        simp only [move, hst, hc, Bool.false_eq_true, if_false]
      have hactivity : Within Q (.running j began activity) :=
        h.mono fun q hq => ⟨hq.1, .inl hq.2⟩
      obtain ⟨hadds, hsends⟩ := Activity.resume_sends hactivity j.device (s.atWake t).hub
      rw [hmove]
      have hsettle := settle_within (s := s.atWake t) (j := j) began hadds hsends
      exact ⟨hkeep.trans hsettle.1, hsettle.2⟩
  | ended finish outcome =>
    have hmove : (s.atWake t).move t = (t.stage, s.atWake t) := by simp only [move, hst]
    rw [hmove, hst]
    exact ⟨hkeep, trivial⟩

/-- What turns put down to a task are calls for requests of its service, made once its job was there:
before the turns, or in one of them. -/
theorem gained_within {P : Prop} (turns : List Turn) (ht : s.tasks[i]? = some t)
    (h : Within (fun q => t.call.service.Asks q ∧ P) t.stage) :
    ∀ r ∈ ofTask i (gained made s turns), (∃ q, t.call.service.Asks q ∧ r.For q) ∧
      (P ∨ Occurs s turns i fun s' => ∃ t', s'.tasks[i]? = some t' ∧ t'.call = t.call ∧
        ∃ j, (s'.jobOf t').outcome = .ok j) := by
  induction turns generalizing s t P with
  | nil => exact List.forall_mem_nil _
  | cons turn turns ih =>
    cases turn with
    | arrange a f =>
      have hrest := ih (s := s.arrange a f) ht h
      intro r hr
      obtain ⟨hfor, hstarted⟩ := hrest r hr
      exact ⟨hfor, hstarted.imp id fun hoccurs => (occurs_cons _).mpr (.inr hoccurs)⟩
    | wake k =>
      rw [ofTask_gained_wake]
      by_cases hk : k = i
      · subst hk
        rw [if_pos rfl]
        obtain ⟨⟨new, hnew, hfor⟩, hwithin⟩ := move_within (s := s) h
        have hstarts : (∃ j, (s.jobOf t).outcome = .ok j) → Occurs s (.wake k :: turns) k fun s' =>
            ∃ t', s'.tasks[k]? = some t' ∧ t'.call = t.call ∧ ∃ j, (s'.jobOf t').outcome = .ok j :=
          fun hjob => (occurs_cons _).mpr (.inl ⟨rfl, t, ht, rfl, hjob⟩)
        have hmade : (s.advance k).made.drop s.made.length = new := by
          have hcalls : (s.advance k).made = s.made ++ new := by
            rw [advance_eq ht]
            exact hnew
          rw [hcalls, List.drop_left]
        rw [hmade]
        refine List.forall_mem_append.mpr ⟨fun r hr => ?_, fun r hr => ?_⟩
        · obtain ⟨q, ⟨hq, hstarted⟩, hrq⟩ := hfor r hr
          exact ⟨⟨q, hq, hrq⟩, hstarted.imp id hstarts⟩
        · obtain ⟨hfor, hstarted⟩ := ih (getElem?_advance ht) hwithin r hr
          refine ⟨hfor, ?_⟩
          rcases hstarted with (hP | hjob) | hoccurs
          · exact .inl hP
          · exact .inr (hstarts hjob)
          · exact .inr ((occurs_cons _).mpr (.inr hoccurs))
      · rw [if_neg hk, List.nil_append]
        intro r hr
        obtain ⟨hfor, hstarted⟩ := ih ((getElem?_advance_of_ne hk).trans ht) h r hr
        exact ⟨hfor, hstarted.imp id fun hoccurs => (occurs_cons _).mpr (.inr hoccurs)⟩

/-- What is put down is put down to a task that is there. -/
theorem exists_task_of_gained {turns : List Turn} {x : Nat × CallRecord}
    (h : x ∈ gained made s turns) : ∃ t, s.tasks[x.1]? = some t := by
  induction turns generalizing s with
  | nil => cases h
  | cons turn turns ih =>
    cases turn with
    | arrange a f => exact ih (s := s.arrange a f) h
    | wake k =>
      rw [gained] at h
      cases ht : s.tasks[k]? with
      | none =>
        have hsame : s.advance k = s := by rw [advance, ht]
        rw [hsame, List.drop_length] at h
        exact ih h
      | some t =>
        rcases List.mem_append.mp h with h | h
        · obtain ⟨r, -, rfl⟩ := List.mem_map.mp h
          exact ⟨t, ht⟩
        · obtain ⟨u, hu⟩ := ih h
          by_cases hk : k = x.1
          · exact ⟨t, hk ▸ ht⟩
          · exact ⟨u, (getElem?_advance_of_ne hk).symm.trans hu⟩

/-- Whatever services are called and in whatever order their tasks move on and devices change, every
call of a cluster that is put down to a call of a service is in the frame of the service, and a
service for dimmers makes none unless the device that is named told a model that dims when the
service was started. -/
theorem calls_in_frame (s : Session) (calls : List Call) (turns : List Turn) (i : Nat)
    (r : CallRecord) (h : (i, r) ∈ gained made (s.opened calls) turns) :
    ∃ call c, calls[i]? = some call ∧ r.endpoint = c.endpoint ∧ r.cluster = c.id ∧
      call.service.Frame c r.call ∧
      (call.service.isDimmer → Occurs (s.opened calls) turns i fun s' =>
        ∃ d, s'.Named call d ∧ d.Dims) := by
  obtain ⟨t, ht⟩ := exists_task_of_gained h
  have htask : ((calls.map (Task.ofCall s.hub.now))[i]?) = some t := ht
  rw [List.getElem?_map] at htask
  obtain ⟨call, hcall, rfl⟩ := Option.map_eq_some_iff.mp htask
  have hr : r ∈ ofTask i (gained made (s.opened calls) turns) :=
    List.mem_map.mpr ⟨(i, r), List.mem_filter.mpr ⟨h, by simp⟩, rfl⟩
  obtain ⟨⟨q, hq, hfor⟩, hstarted⟩ := gained_within (P := False) turns ht trivial r hr
  refine ⟨call, q.cluster, hcall, hfor.endpoint, hfor.cluster, hq.frame hfor.call, fun hdims => ?_⟩
  obtain ⟨before, later, hturns, t', -, htcall, j, hj⟩ := hstarted.resolve_left id
  have hservice : t'.call = call := htcall
  obtain ⟨given, address, d, hgiven, haddress, hd, hdim⟩ :=
    Service.dims_of_job (hservice ▸ hdims) hj
  rw [hservice] at hgiven
  exact ⟨before, later, hturns, d, ⟨given, address, hgiven, haddress, hd⟩, hdim⟩

/-- The first call for the sample of a dimmer: its minimum level is written, with the code. -/
def levelRecord : CallRecord where
  time := 0
  endpoint := Cluster.levelControl.endpoint
  cluster := Cluster.levelControl.id
  call := .write [(Attribute.minimumOnLevel, .int 1)] (some manufacturerCode)

theorem start_level (lines : Log) (verbose : Bool) :
    (Activity.start sampleAddress ((slowHub sampleAddress).write lines)
      (Operation.dimmerSetup.purpose.procedure verbose)).2.calls = [levelRecord] := by
  cases verbose <;> rfl

theorem opening_level :
    ((opening .dimmerSetup sampleAddress [sampleText]).advance 0).made = [levelRecord] := by
  have hs := opening_reachable .dimmerSetup sampleAddress [sampleText]
  have hstarts := starts_call (i := 0) (s := opening .dimmerSetup sampleAddress [sampleText]) rfl
    (slowHub_slow sampleAddress) spells_sample rfl
  obtain ⟨s', hhub, -, hadvance⟩ :=
    hs.admitted hstarts (not_hasHolder_calls rfl _) (proper_of_data rfl _)
  rw [hadvance]
  refine (settle_made s'.hub.now _).trans ?_
  rw [hhub]
  exact start_level _ s'.verbose

theorem calls_in_frame_level :
    (0, levelRecord) ∈ gained made (opening .dimmerSetup sampleAddress [sampleText]) [.wake 0] ∧
    ∃ call c, [Operation.dimmerSetup.call sampleText][0]? = some call ∧
      levelRecord.endpoint = c.endpoint ∧ levelRecord.cluster = c.id ∧
      call.service.Frame c levelRecord.call ∧
      (call.service.isDimmer →
        Occurs (opening .dimmerSetup sampleAddress [sampleText]) [.wake 0] 0 fun s' =>
          ∃ d, s'.Named call d ∧ d.Dims) := by
  have hmember : (0, levelRecord) ∈
      gained made (opening .dimmerSetup sampleAddress [sampleText]) [.wake 0] := by
    refine List.mem_append_left _ (List.mem_map.mpr ⟨levelRecord, ?_, rfl⟩)
    rw [opening_level]
    exact List.mem_singleton_self _
  exact ⟨hmember, calls_in_frame (opening .dimmerSetup sampleAddress [])
    [Operation.dimmerSetup.call sampleText] [.wake 0] 0 levelRecord hmember⟩

end Session

end Commissioning

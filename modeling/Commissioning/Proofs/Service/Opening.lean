import Commissioning.Proofs.Covering.Options
import Commissioning.Proofs.Covering.Phase
import Commissioning.Proofs.Device.Opening
import Commissioning.Proofs.Service.Admission
import Commissioning.Proofs.Service.Form
import Commissioning.Proofs.Service.Job

/-!
Sessions that open with calls of one operation on a slow device. Each operation has a call that any
text of the address makes complete, and its job opens with a request, so it is under way as soon as
it has started.
-/
namespace Commissioning

/-- The model of a device that every operation accepts. -/
def slowModel : String := Model.d1.name

/-- A device with all clusters, each of which takes a second for each of its first two calls. -/
def slowDevice (a : Address) : Device where
  address := a
  label := a.text
  model := .str slowModel
  clusters := Cluster.all.map fun c =>
    (Device.place c, { script := [{ delay := 1000 }, { delay := 1000 }] })
  endpoints := Cluster.all.map Cluster.endpoint

/-- A hub with one slow device. -/
def slowHub (a : Address) : Hub where
  now := 0
  limit := Hub.defaultLimit
  devices := [slowDevice a]
  calls := []
  log := []

theorem slowHub_slow (a : Address) : (slowHub a).Slow a (.str slowModel) 2 := by
  have hd : (slowHub a).device? a = some (slowDevice a) := by
    simp [Hub.device?, slowHub, slowDevice]
  constructor
  · change 0 < Hub.defaultLimit
    decide
  · exact ⟨_, hd, rfl, rfl⟩
  · intro c
    refine ⟨{ script := [{ delay := 1000 }, { delay := 1000 }] }, ?_, Nat.le_refl _, ?_⟩
    · rw [Hub.cluster, hd]
      cases c <;> rfl
    · intro r hr
      simp only [List.mem_cons, List.not_mem_nil, or_false, or_self] at hr
      subst hr
      decide

namespace Operation

/-- The service that carries out an operation. -/
def service : Operation → Service
  | calibration => .configureCovering
  | deviceSetup => .configureDeviceSetup
  | dimmerSetup => .configureDimmer

theorem operation?_service (o : Operation) : o.service.operation? = some o := by
  cases o <;> rfl

/-- The least data that a call of an operation can have. -/
def request (o : Operation) (u : String) : Value :=
  .dict ((Key.address, .str u) :: match o with
    | calibration => []
    | deviceSetup => [(Key.inputConfigurations, .list [])]
    | dimmerSetup => [(Key.minimumOnLevel, .int 1)])

/-- A call of an operation on the device of a text. -/
def call (o : Operation) (u : String) : Call := { service := o.service, data := o.request u }

/-- The speed that the form of a covering puts in. -/
def speed : Value := .float (.ofNat 50)

/-- The data of a call once they have been checked. -/
def given (o : Operation) (u : String) : Entries :=
  (Key.address, .str u) :: match o with
    | calibration => [(Covering.calibrateKey, .bool false), (Covering.speedKey, speed)]
    | deviceSetup => [(Key.inputConfigurations, .list [])]
    | dimmerSetup => [(Key.minimumOnLevel, .int 1)]

/-- What a call does. -/
def purpose : Operation → Purpose
  | calibration => .configureCovering { flag := .bool false, speed := speed }
  | deviceSetup =>
    .configureDeviceSetup (.str slowModel) ⟨.list [], .null, .null⟩
  | dimmerSetup => .configureDimmer .null (.int 1)

/-! ### A covering with the flag and the speed of the form -/

section
variable {given read raw : Entries} {x : Binary64}

theorem check_speed (hx : Value.realOfInt Covering.defaultSpeed = .ok x)
    (hpositive : (Binary64.ofNat 0).lt x) :
    Form.covering.checkEntry Covering.speedKey (.int Covering.defaultSpeed) =
      .ok (.ok (.float x)) := by
  have hreal : (Check.real true).apply (.int Covering.defaultSpeed) = Check.pass (.float x) := by
    simp [Check.apply, Value.toReal, hx, Check.coerce, Check.bounded, hpositive, Check.simple]
  change (do
    return Check.inside (.key Covering.speedKey)
      (← (Check.real true).apply (.int Covering.defaultSpeed))) = _
  rw [hreal]
  rfl

theorem defaults_covering (u : String) (hflag : given.get? Covering.calibrateKey = none)
    (hspeed : given.get? Covering.speedKey = none) :
    Form.covering.defaults ((Key.address, .str u) :: given) =
      [(Covering.calibrateKey, .bool false), (Covering.speedKey, .int Covering.defaultSpeed)] := by
  have hflag' : Entries.get? ((Key.address, .str u) :: given) Covering.calibrateKey = none := hflag
  have hspeed' : Entries.get? ((Key.address, .str u) :: given) Covering.speedKey = none := hspeed
  simp [Form.defaults, Form.covering, Form.addressField, hflag', hspeed']

theorem check_covering (hx : Value.realOfInt Covering.defaultSpeed = .ok x)
    (hpositive : (Binary64.ofNat 0).lt x) (u : String)
    (hgiven : Form.covering.checkEntries given = .ok (.ok read))
    (hflag : given.get? Covering.calibrateKey = none)
    (hspeed : given.get? Covering.speedKey = none) :
    Form.covering.check (.dict ((Key.address, .str u) :: given)) = .ok ((Key.address, .str u) ::
      (read ++ [(Covering.calibrateKey, .bool false), (Covering.speedKey, .float x)])) := by
  have hdefault : Form.covering.checkEntry Covering.calibrateKey (.bool false) =
    .ok (.ok (.bool false)) := rfl
  have hentries : Form.covering.checkEntries
      ((Key.address, .str u) :: given ++ Form.covering.defaults ((Key.address, .str u) :: given)) =
      .ok (.ok ((Key.address, .str u) ::
        (read ++ [(Covering.calibrateKey, .bool false), (Covering.speedKey, .float x)]))) := by
    rw [defaults_covering u hflag hspeed]
    refine Form.checkEntries_cons.mpr ⟨_, _, rfl, Form.checkEntries_append hgiven ?_, rfl⟩
    exact Form.checkEntries_cons.mpr ⟨_, _, hdefault,
      Form.checkEntries_cons.mpr ⟨_, _, check_speed hx hpositive, rfl, rfl⟩, rfl⟩
  simp only [Form.check, Form.verdict, hentries]
  rfl

theorem readSpeed_real (hget : given.get Covering.speedKey = .float x)
    (hnegative : x.lt (.ofNat 0) = false) (hpositive : x.le (.ofNat 0) = false) :
    Covering.readSpeed given = .ok (.float x, .real x) := by
  have hnumber : Covering.requireNumber Covering.speedKey (.float x) = .ok (.real x) := by
    simp [Covering.requireNumber, Quantity.ofValue?, Quantity.isNegative, hnegative]
  rw [Covering.readSpeed, hget]
  refine bind_eq_ok.mpr ⟨_, hnumber, ?_⟩
  exact if_neg (by rw [Quantity.isNotPositive, hpositive]; nofun)

/-- Options of nothing but raw overrides. -/
theorem validate_overrides (hknown : ∀ key ∈ given.map Prod.fst, key ∈ Covering.knownKeys)
    (hflag : given.get Covering.calibrateKey = .bool false)
    (hspeed : Covering.readSpeed given = .ok (.float x, .real x))
    (hbase : Covering.readBase given Covering.baseAttributes = pure [])
    (hraw : Covering.readOverrides given Covering.overrideAttributes = .ok raw)
    (hconverted : Covering.readConversions given (.real x) Covering.conversions = .ok []) :
    (Covering.validate (.dict given)).outcome =
      .ok { flag := .bool false, speed := .float x, overrides := raw } := by
  have hread : Covering.readFlag given = .ok false := by rw [Covering.readFlag, hflag]
  rw [Covering.validate_of_known hknown]
  refine Logged.bind_outcome_eq_ok.mpr ⟨_, mapError_eq_ok.mpr hspeed, ?_⟩
  refine Logged.bind_outcome_eq_ok.mpr ⟨[], by rw [hbase]; rfl, ?_⟩
  refine Logged.bind_outcome_eq_ok.mpr ⟨raw, mapError_eq_ok.mpr hraw, ?_⟩
  refine Logged.bind_outcome_eq_ok.mpr ⟨[], hconverted, ?_⟩
  refine Logged.bind_outcome_eq_ok.mpr ⟨false, mapError_eq_ok.mpr hread, ?_⟩
  rw [List.append_nil]
  rfl

end

theorem realOfInt_defaultSpeed : Value.realOfInt Covering.defaultSpeed = .ok (.ofNat 50) := by
  have hround : Binary64.ofInt? Covering.defaultSpeed = some (.ofNat 50) := by decide +kernel
  unfold Value.realOfInt
  rw [hround]

/-! ### Every operation -/

theorem check_request (o : Operation) (u : String) :
    o.service.form.check (o.request u) = .ok (o.given u) := by
  cases o with
  | calibration =>
    have hnothing : Form.covering.checkEntries [] = .ok (.ok []) := rfl
    exact check_covering realOfInt_defaultSpeed (by decide +kernel) u hnothing rfl rfl
  | deviceSetup => rfl
  | dimmerSetup => rfl

theorem get_given (o : Operation) (u : String) : (o.given u).get Key.address = .str u := by
  cases o <;> rfl

theorem call_names (o : Operation) (u : String) : (o.call u).Names o u :=
  ⟨o.operation?_service, _, o.check_request u, o.get_given u⟩

theorem purpose_given (o : Operation) (u x : String) {d : Device} (hd : d.model = .str slowModel) :
    ∃ f, (o.service.purpose (o.given u) x).outcome = .ok f ∧ f d = .ok o.purpose := by
  have hname : d.shortModel = .ok (some slowModel) := by
    rw [Device.shortModel, hd]
    rfl
  cases o with
  | calibration =>
    have hspeed : Covering.readSpeed [(Covering.calibrateKey, .bool false),
        (Covering.speedKey, .float (.ofNat 50))] = _ :=
      readSpeed_real rfl (by decide +kernel) (by decide +kernel)
    have hvalid := validate_overrides (by decide) rfl hspeed rfl rfl rfl
    exact ⟨_, Logged.bind_outcome_eq_ok.mpr ⟨_, hvalid, rfl⟩, rfl⟩
  | deviceSetup =>
    refine ⟨_, rfl, bind_eq_ok.mpr ⟨.str slowModel, ?_, rfl⟩⟩
    exact mapError_eq_ok.mpr (bind_eq_ok.mpr ⟨_, hname, rfl⟩)
  | dimmerSetup =>
    refine ⟨_, rfl, bind_eq_ok.mpr ⟨some slowModel, ?_, rfl⟩⟩
    exact mapError_eq_ok.mpr hname

theorem job_call (o : Operation) {u x : String} {a : Address} (hu : Spells u x a) {h : Hub}
    {d : Device} (hd : h.device? a = some d) (hmodel : d.model = .str slowModel) :
    (o.service.job (o.request u) h true).outcome = .ok ⟨o.purpose, x, a⟩ := by
  obtain ⟨f, hf, hp⟩ := o.purpose_given u x hmodel
  refine Service.job_eq_ok.mpr ⟨o.given u, f, d, o.check_request u, ?_, hf, ?_, hp, ?_⟩
  · rw [o.get_given u]
    exact hu.normal
  · exact find_eq_ok.mpr ⟨rfl, a, hu.address, hd⟩
  · exact (device?_address hd).symm

theorem covering_opens {o : Covering.Options} (ho : (Value.dict o.announcement).isShowable = true)
    (verbose : Bool) : ((Purpose.configureCovering o).procedure verbose).Opens := by
  change Procedure.Opens (Covering.configure o verbose)
  rw [Covering.configure, Covering.announce_of_isShowable ho]
  exact .clock fun _ => .log (.request _ rfl rfl)

theorem purpose_opens (o : Operation) (verbose : Bool) : (o.purpose.procedure verbose).Opens := by
  cases o with
  | calibration => exact covering_opens rfl verbose
  | deviceSetup => exact .clock fun _ => .request _ rfl rfl
  | dimmerSetup => exact .clock fun _ => .request _ rfl rfl

end Operation

/-- An address in the spelling that messages show. -/
def sampleText : String := "00:1f:ee:00:00:00:12:34"

/-- The address that it stands for. -/
def sampleAddress : Address := ⟨"001fee0000001234".toList⟩

theorem spells_sample : Spells sampleText sampleText sampleAddress :=
  .of_lower (by decide +kernel) (by decide) (by decide +kernel)

/-- Whether a stage runs a job. -/
def Stage.IsRunning (st : Stage) : Prop := ∃ j began activity, st = .running j began activity

namespace Session
variable {s : Session} {i : Nat} {t : Task} {j : Job} {o : Operation} {k : LockKey} {u x : String}
  {a : Address}

/-- A session in which calls of an operation on one slow device are on their way. -/
def opening (o : Operation) (a : Address) (texts : List String) : Session where
  hub := slowHub a
  hasGateway := true
  verbose := false
  data := []
  tables := []
  events := []
  tasks := (texts.map o.call).map (Task.ofCall 0)

theorem opening_reachable (o : Operation) (a : Address) (texts : List String) :
    (opening o a texts).Reachable :=
  have hsetUp : Session.setUp .null true (slowHub a) = .ok _ := rfl
  .call (.setUp hsetUp) (fun _ h => nomatch h) (texts.map o.call)

/-- A job that opens with a request to a slow device runs on once it has been let in. -/
theorem Reachable.runs_of_slow {model : Value} {n : Nat} (hs : s.Reachable)
    (h : s.Starts i t j o k) (hk : ¬ s.HasHolder k) (hp : s.Proper k)
    (hslow : s.hub.Slow j.device model (n + 1))
    (hopens : ∀ verbose, (j.purpose.procedure verbose).Opens) :
    ∃ st, (s.advance i).tasks = s.tasks.set i { t with stage := st } ∧ st.IsRunning ∧
      (s.advance i).hub.Slow j.device model n := by
  obtain ⟨s', hhub, -, hadvance⟩ := hs.admitted h hk hp
  have hslow' : s'.hub.Slow j.device model (n + 1) := by
    rw [hhub]
    exact ⟨hslow.limit, hslow.device, hslow.late⟩
  obtain ⟨hwake, hrest⟩ := Activity.start_of_slow (hopens s'.verbose) hslow'
  have hlaunch : s'.launch j = _ := settle_of_wake hwake
  rw [hadvance, hlaunch]
  exact ⟨_, rfl, ⟨_, _, _, rfl⟩, hrest⟩

/-- A call of a session that opens on a slow device is complete whenever it starts. -/
theorem starts_call {i start n : Nat} (hg : s.hasGateway)
    (hslow : s.hub.Slow a (.str slowModel) n) (hu : Spells u x a)
    (ht : s.tasks[i]? = some (Task.ofCall start (o.call u))) :
    s.Starts i (Task.ofCall start (o.call u)) ⟨o.purpose, x, a⟩ o ⟨o.name, x⟩ := by
  obtain ⟨d, hd, -, hmodel⟩ := hslow.device
  have hjob := o.job_call hu (h := (s.atWake (Task.ofCall start (o.call u))).hub) hd hmodel
  refine ⟨ht, ⟨_, rfl⟩, ?_, ?_⟩
  · unfold jobOf
    rw [hg]
    exact hjob
  · cases o <;> rfl

/-- Calls on their way hold no lock. -/
theorem not_hasHolder_calls {start : Nat} {calls : List Call}
    (h : s.tasks = calls.map (Task.ofCall start)) (k : LockKey) : ¬ s.HasHolder k := by
  rintro ⟨i, t, ht, hk⟩
  have hmem : t ∈ calls.map (Task.ofCall start) := h ▸ List.mem_of_getElem? ht
  obtain ⟨c, -, rfl⟩ := List.mem_map.mp hmem
  exact hk

/-- Where the host keeps nothing, nothing is in place of a lock. -/
theorem proper_of_data (h : s.data = []) (k : LockKey) : s.Proper k := by
  rw [Proper, h]
  exact ⟨nofun, fun _ => nofun⟩

/-- A call that runs holds the lock of its spelling. -/
theorem Reachable.holds (h : s.Reachable) (ht : s.tasks[i]? = some t) (hn : t.call.Names o u)
    (hu : Spells u x a) (hrun : t.stage.IsRunning) :
    t.stage.Holds k ↔ k = ⟨o.name, x⟩ := by
  obtain ⟨j, began, activity, hst⟩ := hrun
  obtain ⟨hub, hj⟩ := h.runsJobOf t (List.mem_of_getElem? ht) j began activity hst
  obtain ⟨hlock, -⟩ := Service.job_of_names hn hu hj
  rw [hst]
  simp [Stage.Holds, Job.Needs, hlock, eq_comm]

/-- The first call of an opening session runs as soon as it has started. -/
theorem opening_advance (o : Operation) (hu : Spells u x a) (texts : List String) :
    ∃ st : Stage, ((opening o a (u :: texts)).advance 0).tasks =
        { Task.ofCall 0 (o.call u) with stage := st } :: (texts.map o.call).map (Task.ofCall 0) ∧
      st.IsRunning ∧ ((opening o a (u :: texts)).advance 0).hub.Slow a (.str slowModel) 1 :=
  (opening_reachable o a (u :: texts)).runs_of_slow (starts_call rfl (slowHub_slow a) hu rfl)
    (not_hasHolder_calls rfl _) (proper_of_data rfl _) (slowHub_slow a) o.purpose_opens

/-- The second one is complete then, and about to start. -/
theorem opening_starts (o : Operation) (hu : Spells u x a) {v y : String} (hv : Spells v y a)
    (texts : List String) : ((opening o a (u :: v :: texts)).advance 0).Starts 1
      (Task.ofCall 0 (o.call v)) ⟨o.purpose, y, a⟩ o ⟨o.name, y⟩ := by
  obtain ⟨st, htasks, -, hslow⟩ := opening_advance o hu (v :: texts)
  have hhost := (opening o a (u :: v :: texts)).advance_host 0
  refine starts_call (congrArg Prod.fst hhost) hslow hv ?_
  rw [htasks]
  rfl

end Session

end Commissioning

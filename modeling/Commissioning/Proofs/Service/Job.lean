import Commissioning.Proofs.Service.Reachable

/-!
What a job has of its call: the operation of the service, the address as locks have it, and the
device which that address stands for. A task runs the job of its own call.

    data ──form──▶ text ──normalized──▶ address of the lock ──read?──▶ address of the device
-/
namespace Commissioning

/-- The operation that a service carries out; services that only answer carry out none. -/
def Service.operation? : Service → Option Operation
  | configureCovering => some .calibration
  | configureDeviceSetup => some .deviceSetup
  | configureDimmer => some .dimmerSetup
  | readCovering | readDeviceSetup | readDimmer => none

/-- A text names a device: normalized for locks and messages, it can be read as the address. -/
structure Spells (u x : String) (a : Address) : Prop where
  normal : normalizedAddress (.str u) = .ok x
  address : Address.read? x = some a

theorem Spells.of_lower {u x : String} {a : Address}
    (hlower : Text.lower (String.ofList (Text.trim u.toList)) = x) (hx : x ≠ "")
    (ha : Address.read? x = some a) : Spells u x a := by
  refine ⟨?_, ha⟩
  have htext : (Value.str u).toText = u := rfl
  have hshown : ¬ (!(Value.str u).isShowable) = true := nofun
  rw [normalizedAddress, if_neg hshown, htext, hlower]
  split
  · exact absurd rfl hx
  · rfl

/-- A call of an operation whose data have a text as the address. -/
structure Call.Names (c : Call) (o : Operation) (u : String) : Prop where
  operation : c.service.operation? = some o
  address : ∃ given, c.service.form.check c.data = .ok given ∧ given.get Key.address = .str u

/-- The operation of what a service does. -/
theorem purpose_operation {x : Service} {given : Entries} {address : String} {d : Device}
    {f : Device → Outcome Purpose} {p : Purpose} (hf : (x.purpose given address).outcome = .ok f)
    (hp : f d = .ok p) : p.operation? = x.operation? := by
  cases x with
  | configureCovering =>
    obtain ⟨o, -, hf⟩ := Logged.bind_outcome_eq_ok.mp hf
    cases hf
    cases hp
    rfl
  | readCovering =>
    cases hf
    cases hp
    rfl
  | configureDeviceSetup =>
    cases hf
    obtain ⟨model, -, hp⟩ := bind_eq_ok.mp hp
    cases hp
    rfl
  | readDeviceSetup =>
    cases hf
    cases hp
    rfl
  | configureDimmer | readDimmer =>
    cases hf
    obtain ⟨name, -, hp⟩ := bind_eq_ok.mp hp
    obtain ⟨_, -, hp⟩ := bind_eq_ok.mp hp
    cases hp
    rfl

theorem find_eq_ok {h : Hub} {g : Bool} {x : String} {d : Device} :
    h.find g x = .ok d ↔ g ∧ ∃ a, Address.read? x = some a ∧ h.device? a = some d := by
  unfold Hub.find
  cases Address.read? x with
  | none => simp
  | some a =>
    cases g with
    | false => simp
    | true => cases hd : h.device? a <;> simp [hd]

theorem device?_address {h : Hub} {a : Address} {d : Device} (hd : h.device? a = some d) :
    d.address = a := by
  simpa using List.find?_some hd

namespace Service
variable {x : Service} {data : Value} {h : Hub} {g : Bool} {j : Job}

/-- What it takes for a call to become a job. -/
theorem job_eq_ok : (x.job data h g).outcome = .ok j ↔ ∃ given f d,
    x.form.check data = .ok given ∧ normalizedAddress (given.get Key.address) = .ok j.address ∧
    (x.purpose given j.address).outcome = .ok f ∧ h.find g j.address = .ok d ∧
    f d = .ok j.purpose ∧ j.device = d.address := by
  unfold job
  simp only [Logged.bind_outcome_eq_ok, Logged.outcome_ofOutcome, Logged.outcome_pure,
    mapError_eq_ok]
  constructor
  · rintro ⟨given, hgiven, address, haddress, f, hf, d, hd, purpose, hp, hj⟩
    cases hj
    exact ⟨given, f, d, hgiven, haddress, hf, hd, hp, rfl⟩
  · rintro ⟨given, f, d, hgiven, haddress, hf, hd, hp, hdevice⟩
    refine ⟨given, hgiven, j.address, haddress, f, hf, d, hd, j.purpose, hp, ?_⟩
    rw [← hdevice]

/-- The lock of a job goes by the normalized text, the device by the address that it stands for. -/
theorem job_of_names {c : Call} {o : Operation} {u y : String} {a : Address} (hn : c.Names o u)
    (hu : Spells u y a) (hj : (c.service.job c.data h g).outcome = .ok j) :
    j.lock? = some (o, ⟨o.name, y⟩) ∧ j.device = a := by
  obtain ⟨given, f, d, hgiven, haddress, hf, hd, hp, hdevice⟩ := job_eq_ok.mp hj
  obtain ⟨given', hgiven', htext⟩ := hn.address
  rw [hgiven] at hgiven'
  cases hgiven'
  rw [htext, hu.normal] at haddress
  have hy : y = j.address := Except.ok.inj haddress
  obtain ⟨-, a', ha', hd'⟩ := find_eq_ok.mp hd
  rw [← hy, hu.address] at ha'
  cases ha'
  constructor
  · simp only [Job.lock?, purpose_operation hf hp, hn.operation, Option.map_some, hy]
  · rw [hdevice, device?_address hd']

end Service

namespace Session
variable {s : Session}

theorem settle_job {j j' : Job} {began began' : Nat} {r : Activity Entries × Hub}
    {activity : Activity Entries} (h : (s.settle j began r).1 = .running j' began' activity) :
    j' = j := by
  obtain ⟨activity, hub⟩ := r
  cases activity <;> cases h <;> rfl

theorem enter_job {j j' : Job} {began : Nat} {activity : Activity Entries}
    (h : (s.enter j).1 = .running j' began activity) : j' = j := by
  unfold enter at h
  split at h
  · exact settle_job h
  · split at h
    · cases h
    · dsimp only at h
      split at h
      · cases h
      · cases h
      · exact settle_job h

/-- Whether a stage runs, if it runs, a job of a call. -/
def RunsJobOf (hasGateway : Bool) (c : Call) (st : Stage) : Prop :=
  ∀ j began activity, st = .running j began activity →
    ∃ hub, (c.service.job c.data hub hasGateway).outcome = .ok j

theorem move_runsJobOf (s : Session) (t : Task) (h : RunsJobOf s.hasGateway t.call t.stage) :
    RunsJobOf s.hasGateway t.call (s.move t).1 := by
  intro j began activity hst
  unfold move at hst
  split at hst
  · unfold start at hst
    dsimp only at hst
    split at hst
    · cases hst
    · next j' hj' =>
      rw [enter_job hst]
      exact ⟨s.hub, hj'⟩
  · next j' began' activity' h' =>
    split at hst
    · cases hst
    · rw [settle_job hst]
      exact h j' began' activity' h'
  · exact h j began activity hst

/-- A task runs the job of its call, made when the call started. -/
theorem Reachable.runsJobOf (h : s.Reachable) :
    ∀ t ∈ s.tasks, RunsJobOf s.hasGateway t.call t.stage :=
  h.invariant (fun _ _ _ _ _ _ h => nomatch h) move_runsJobOf

end Session

end Commissioning

import Commissioning.Proofs.Device.Beside
import Commissioning.Proofs.Service.Admission
import Commissioning.Proofs.Service.Job
import Commissioning.Proofs.Service.Regular

/-!
Two sessions side by side. A call has one device, and its task touches no other. Where two sessions
have that device in the same state and nobody else has its locks, a task of the call that moves on in
one session and its twin in the other one do the same, as long after their starts.

    session s     task at b  + n ── move ──▶ stage at b  + m, calls, events
    session s'    twin at b' + n ── move ──▶ stage at b' + m, the same calls and events
-/
namespace Commissioning

/-! ### The device of a call -/

/-- The device that a call is for, as far as its data tell one. -/
def Call.address? (c : Call) : Option Address :=
  match c.service.form.check c.data with
  | .error _ => none
  | .ok given => match normalizedAddress (given.get Key.address) with
    | .error _ => none
    | .ok x => Address.read? x

namespace Service
variable {c : Call} {h h' : Hub} {g : Bool} {j : Job}

/-- The job of a call is on the device of the call, and the text that its lock goes by names it. -/
theorem address?_of_job (hj : (c.service.job c.data h g).outcome = .ok j) :
    j.device ∈ c.address? ∧ Address.read? j.address = some j.device := by
  obtain ⟨given, f, d, hgiven, haddress, -, hd, -, hdevice⟩ := job_eq_ok.mp hj
  obtain ⟨-, a, ha, hd⟩ := find_eq_ok.mp hd
  have hread : Address.read? j.address = some j.device := by rw [hdevice, device?_address hd, ha]
  refine ⟨?_, hread⟩
  rw [Option.mem_def, Call.address?, hgiven]
  dsimp only
  rw [haddress]
  exact hread

/-- Of all that a hub has, a job depends on the device of its call. -/
theorem job_congr (hdevice : ∀ a ∈ c.address?, h'.device? a = h.device? a) :
    c.service.job c.data h' g = c.service.job c.data h g := by
  unfold job
  refine Logged.bind_congr fun given hgiven => Logged.bind_congr fun x hx => ?_
  refine Logged.bind_congr fun purpose _ => ?_
  rw [Logged.outcome_ofOutcome] at hgiven hx
  have hfind : h'.find g x = h.find g x := by
    unfold Hub.find
    cases ha : Address.read? x with
    | none => rfl
    | some a =>
      have hmem : a ∈ c.address? := by
        rw [Option.mem_def, Call.address?, hgiven]
        dsimp only
        rw [hx]
        exact ha
      dsimp only
      rw [hdevice a hmem]
  rw [hfind]

end Service

/-! ### What is told about a job -/

/-- An event as it is told in a run that starts at a time. -/
def Event.later (b : Nat) (e : Event) : Event := { e with time := b + e.time }

theorem Job.event?_later (j : Job) (b began finish : Nat) (outcome : Outcome Entries) :
    j.event? (b + began) (b + finish) outcome = (j.event? began finish outcome).map (·.later b) := by
  unfold event?
  rw [Nat.add_sub_add_left]
  split <;> rfl

/-! ### Twins -/

/-- Two stages as long after two starts, on one device. -/
inductive Stage.Twin (here : Option Address) (b b' : Nat) : Stage → Stage → Prop where
  | waiting : Twin here b b' (.waiting b) (.waiting b')
  | running (j : Job) (hj : j.device ∈ here) (n : Nat) {x x' : Activity Entries}
    (hx : Activity.Twin (fun _ _ => True) b b' x x') :
    Twin here b b' (.running j (b + n) x) (.running j (b' + n) x')
  | ended (n : Nat) (outcome : Outcome Entries) :
    Twin here b b' (.ended (b + n) outcome) (.ended (b' + n) outcome)

namespace Task
variable {b b' : Nat} {t t' : Task}

/-- Two tasks of one call as long after two starts. -/
structure Twin (b b' : Nat) (t t' : Task) : Prop where
  service : t'.call.service = t.call.service
  data : t'.call.data = t.call.data
  cancel : ∃ ms : Option Nat, t.cancelAt = ms.map (b + ·) ∧ t'.cancelAt = ms.map (b' + ·)
  stage : Stage.Twin t.call.address? b b' t.stage t'.stage

theorem Twin.due? (ht : t.Twin b b' t') :
    ∃ n : Option Nat, t.due? = n.map (b + ·) ∧ t'.due? = n.map (b' + ·) := by
  have hstage := ht.stage
  unfold Task.due?
  generalize t.stage = st at hstage ⊢
  generalize t'.stage = st' at hstage ⊢
  cases hstage with
  | waiting => exact ⟨some 0, rfl, rfl⟩
  | running j _ n hx =>
    cases hx with
    | ended outcome => exact ⟨none, rfl, rfl⟩
    | pausing n _ => exact ⟨some n, rfl, rfl⟩
    | calling n x _ => exact ⟨some n, rfl, rfl⟩
  | ended n outcome => exact ⟨none, rfl, rfl⟩

theorem Twin.isCancelled (ht : t.Twin b b' t') : t'.isCancelled = t.isCancelled := by
  obtain ⟨ms, hms, hms'⟩ := ht.cancel
  obtain ⟨n, hn, hn'⟩ := ht.due?
  have hstage := ht.stage
  unfold Task.isCancelled
  rw [hms, hms', hn, hn']
  generalize t.stage = st at hstage ⊢
  generalize t'.stage = st' at hstage ⊢
  cases hstage with
  | waiting => rfl
  | ended n outcome => rfl
  | running j _ began hx => cases ms <;> cases n <;> simp

theorem Twin.wake? (ht : t.Twin b b' t') :
    ∃ n : Option Nat, t.wake? = n.map (b + ·) ∧ t'.wake? = n.map (b' + ·) := by
  unfold Task.wake?
  rw [ht.isCancelled]
  split
  · exact ht.cancel
  · exact ht.due?

end Task

namespace Session
variable {here : Option Address} {b b' : Nat} {o o' s s' : Session} {j : Job} {t t' : Task}

/-- Two sessions as long after two starts, with one device the same. Since they were two other ones
the same calls have been made and the same events told. -/
structure Beside (here : Option Address) (b b' : Nat) (o o' s s' : Session) : Prop where
  hub : Hub.Beside here b b' o.hub.calls o'.hub.calls s.hub s'.hub
  hasGateway : s'.hasGateway = s.hasGateway
  verbose : s'.verbose = s.verbose
  events : ∃ es : List Event,
    s.events = o.events ++ es.map (·.later b) ∧ s'.events = o'.events ++ es.map (·.later b')

theorem Beside.write (h : Beside here b b' o o' s s') (lines lines' : Log) :
    Beside here b b' o o' (s.write lines) (s'.write lines') :=
  ⟨h.hub.write lines lines', h.hasGateway, h.verbose, h.events⟩

/-- Locks have no say in whether sessions are side by side. -/
theorem Beside.locks (h : Beside here b b' o o' s s') (tables tables' : LockTables) :
    Beside here b b' o o' { s with tables } { s' with tables := tables' } :=
  ⟨h.hub, h.hasGateway, h.verbose, h.events⟩

theorem Beside.release (h : Beside here b b' o o' s s') (j : Job) :
    Beside here b b' o o' (s.release j) (s'.release j) := by
  unfold Session.release
  split
  · exact h.locks _ _
  · exact h

theorem Beside.refuse (h : Beside here b b' o o' s s') (e : Fault) :
    Stage.Twin here b b' (s.refuse e).1 (s'.refuse e).1 ∧
      Beside here b b' o o' (s.refuse e).2 (s'.refuse e).2 := by
  obtain ⟨n, hn, hn'⟩ := h.hub.now
  refine ⟨?_, h⟩
  rw [Session.refuse, Session.refuse, hn, hn']
  exact .ended n _

theorem Beside.conclude (h : Beside here b b' o o' s s') (j : Job) (m : Nat)
    (outcome : Outcome Entries) :
    Beside here b b' o o' (s.conclude j (b + m) outcome) (s'.conclude j (b' + m) outcome) := by
  obtain ⟨n, hn, hn'⟩ := h.hub.now
  obtain ⟨es, hes, hes'⟩ := h.events
  have hlog := h.write (j.endLog outcome) (j.endLog outcome)
  refine ⟨hlog.hub, h.hasGateway, h.verbose, es ++ (j.event? m n outcome).toList, ?_, ?_⟩
  · change s.events ++ (j.event? (b + m) s.hub.now outcome).toList = _
    rw [hes, hn, j.event?_later, List.map_append, List.append_assoc]
    cases j.event? m n outcome <;> rfl
  · change s'.events ++ (j.event? (b' + m) s'.hub.now outcome).toList = _
    rw [hes', hn', j.event?_later, List.map_append, List.append_assoc]
    cases j.event? m n outcome <;> rfl

/-- Two jobs that go on side by side stay side by side. -/
theorem Beside.settle (h : Beside here b b' o o' s s') (hj : j.device ∈ here) (m : Nat)
    {r r' : Activity Entries × Hub} (hx : Activity.Twin (fun _ _ => True) b b' r.1 r'.1)
    (hr : Hub.Beside here b b' o.hub.calls o'.hub.calls r.2 r'.2) :
    Stage.Twin here b b' (s.settle j (b + m) r).1 (s'.settle j (b' + m) r').1 ∧
      Beside here b b' o o' (s.settle j (b + m) r).2 (s'.settle j (b' + m) r').2 := by
  obtain ⟨x, hub⟩ := r
  obtain ⟨x', hub'⟩ := r'
  have hgone : Beside here b b' o o' { s with hub } { s' with hub := hub' } :=
    ⟨hr, h.hasGateway, h.verbose, h.events⟩
  cases hx with
  | ended outcome =>
    obtain ⟨n, hn, hn'⟩ := hr.now
    refine ⟨?_, (hgone.conclude j m outcome).release j⟩
    change Stage.Twin here b b' (.ended hub.now outcome) (.ended hub'.now outcome)
    rw [hn, hn']
    exact .ended n outcome
  | pausing n hrest => exact ⟨.running j hj m (.pausing n hrest), hgone⟩
  | calling n x hnext => exact ⟨.running j hj m (.calling n x hnext), hgone⟩

theorem Beside.launch (h : Beside here b b' o o' s s') (hj : j.device ∈ here) :
    Stage.Twin here b b' (s.launch j).1 (s'.launch j).1 ∧
      Beside here b b' o o' (s.launch j).2 (s'.launch j).2 := by
  obtain ⟨n, hn, hn'⟩ := h.hub.now
  obtain ⟨hx, hr⟩ := Activity.start_twin (j.purpose.steady s.verbose b b') hj h.hub
  rw [Session.launch, Session.launch, hn, hn', h.verbose]
  exact h.settle hj n hx hr

/-- A job whose lock nobody else has runs side by side with its twin, or both are turned down. -/
theorem Beside.enter (h : Beside here b b' o o' s s') (hj : j.device ∈ here)
    (hfree : ∀ k, j.Needs k → ¬ s.Held k ∧ ¬ s'.Held k) (hkept : s.tables.Kept s'.tables) :
    Stage.Twin here b b' (s.enter j).1 (s'.enter j).1 ∧
      Beside here b b' o o' (s.enter j).2 (s'.enter j).2 := by
  cases hlock : j.lock? with
  | none =>
    simp only [Session.enter, hlock]
    exact h.launch hj
  | some lock =>
    obtain ⟨operation, k⟩ := lock
    obtain ⟨hfree, hfree'⟩ := hfree k ⟨operation, hlock⟩
    by_cases hp : s.tables.Proper k
    · obtain ⟨tables, -, he⟩ := enter_of_free hlock hfree hp
      obtain ⟨tables', -, he'⟩ := enter_of_free hlock hfree' ((hkept.proper k).mpr hp)
      rw [he, he']
      exact (h.locks (tables.put k .held) (tables'.put k .held)).launch hj
    · obtain ⟨tables, he⟩ := enter_of_improper hlock hp
      obtain ⟨tables', he'⟩ := enter_of_improper hlock (mt (hkept.proper k).mp hp)
      rw [he, he', hkept.obstacle k]
      exact (h.locks tables tables').refuse _

/-- What becomes of a task and its twin in one move. -/
theorem Beside.move (h : Beside t.call.address? b b' o o' s s') (ht : t.Twin b b' t')
    (hfree : ∀ start, t.stage = .waiting start → ∀ j,
      (t.call.service.job t.call.data s.hub s.hasGateway).outcome = .ok j →
        ∀ k, j.Needs k → ¬ s.Held k ∧ ¬ s'.Held k)
    (hkept : s.tables.Kept s'.tables) :
    Stage.Twin t.call.address? b b' (s.move t).1 (s'.move t').1 ∧
      Beside t.call.address? b b' o o' (s.move t).2 (s'.move t').2 := by
  have hstage := ht.stage
  unfold Session.move
  rw [ht.isCancelled]
  generalize t.stage = st at hstage hfree ⊢
  generalize t'.stage = st' at hstage ⊢
  cases hstage with
  | waiting =>
    have hjob : t'.call.service.job t'.call.data s'.hub s'.hasGateway =
        t.call.service.job t.call.data s.hub s.hasGateway := by
      rw [ht.service, ht.data, h.hasGateway]
      exact Service.job_congr h.hub.device
    simp only [Session.start]
    rw [hjob]
    have hwrite := h.write (t.call.service.job t.call.data s.hub s.hasGateway).log
      (t.call.service.job t.call.data s.hub s.hasGateway).log
    cases hok : (t.call.service.job t.call.data s.hub s.hasGateway).outcome with
    | error e => exact hwrite.refuse e
    | ok j => exact hwrite.enter (Service.address?_of_job hok).1 (hfree b rfl j hok) hkept
  | running j hj n hx =>
    dsimp only
    split
    · exact (h.release j).refuse .cancelled
    · obtain ⟨hx, hr⟩ := Activity.resume_twin hx hj h.hub
      exact h.settle hj n hx hr
  | ended n outcome => exact ⟨.ended n outcome, h⟩

/-! ### Other tasks -/

/-- A session after something that took no time and had to do with no other device than one. -/
structure Touches (here : Option Address) (s s' : Session) : Prop where
  hub : s.hub.Touches here s'.hub
  verbose : s'.verbose = s.verbose

theorem settle_touches {began : Nat} {r : Activity Entries × Hub} (hr : s.hub.Touches here r.2) :
    s.Touches here (s.settle j began r).2 := by
  obtain ⟨x, hub⟩ := r
  cases x with
  | pausing wake rest => exact ⟨hr, rfl⟩
  | calling wake x next => exact ⟨hr, rfl⟩
  | ended outcome =>
    have hverbose : (({ s with hub } : Session).conclude j began outcome |>.release j).verbose =
        s.verbose := by
      unfold release
      split <;> rfl
    refine ⟨?_, hverbose⟩
    change s.hub.Touches here (Session.release _ j).hub
    rw [(release_keeps _ j).1]
    exact hr.trans (hub.touches_write _)

theorem launch_touches (s : Session) (hj : j.device ∈ here) : s.Touches here (s.launch j).2 :=
  settle_touches (Activity.touches_start _ hj _)

theorem enter_touches (s : Session) (hj : j.device ∈ here) : s.Touches here (s.enter j).2 := by
  unfold enter
  split
  · exact s.launch_touches hj
  · next o k _ =>
    split
    · exact ⟨.rfl, rfl⟩
    · next tables _ =>
      dsimp only
      split
      · exact ⟨.rfl, rfl⟩
      · exact ⟨.rfl, rfl⟩
      · have hlaunch := (setLock { s with tables } k .held).launch_touches hj
        exact ⟨hlaunch.hub, hlaunch.verbose⟩

/-- A task that moves on has to do with no other device than that of its call. -/
theorem move_touches (hruns : RunsJobOf s.hasGateway t.call t.stage) :
    s.Touches t.call.address? (s.move t).2 := by
  unfold move
  split
  · unfold start
    dsimp only
    split
    · exact ⟨s.hub.touches_write _, rfl⟩
    · next j hj =>
      have henter := (s.write (t.call.service.job t.call.data s.hub s.hasGateway).log).enter_touches
        (Service.address?_of_job hj).1
      exact ⟨(s.hub.touches_write _).trans henter.hub, henter.verbose⟩
  · next j began activity hst =>
    split
    · have hverbose : (s.release j).verbose = s.verbose := by
        unfold release
        split <;> rfl
      refine ⟨?_, hverbose⟩
      change s.hub.Touches _ (s.release j).hub
      rw [(release_keeps s j).1]
      exact .rfl
    · obtain ⟨hub, hjob⟩ := hruns j began activity hst
      exact settle_touches (Activity.touches_resume _ (Service.address?_of_job hjob).1 _)
  · exact ⟨.rfl, rfl⟩

end Session

end Commissioning

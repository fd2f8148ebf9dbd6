import Commissioning.Proofs.Service.Opening
import Commissioning.Proofs.Service.Timely

/-!
Devices are independent. Calls for different devices that run side by side do what each of them does
alone, as long after its start: it ends with the same outcome, its own calls and events are the same,
and it leaves its device in the same state.

    side by side   start 1 ── read ── start 2 ── write ── write ── end 1 ── read ── end 2
    alone          start 1 ── read ───────────── write ─────────── end 1
    alone                             start 2 ─────────── write ─────────── read ── end 2
-/
namespace Commissioning

/-- Two calls are for two devices. -/
def Call.Apart (c c' : Call) : Prop := ∀ a ∈ c.address?, a ∉ c'.address?

theorem Call.Apart.symm {c c' : Call} (h : c.Apart c') : c'.Apart c :=
  fun a ha' ha => h a ha ha'

theorem Call.address?_of_names {c : Call} {o : Operation} {u x : String} {a : Address}
    (hn : c.Names o u) (hu : Spells u x a) : c.address? = some a := by
  obtain ⟨given, hgiven, haddress⟩ := hn.address
  rw [Call.address?, hgiven]
  dsimp only
  rw [haddress, hu.normal]
  exact hu.address

namespace Session
variable {s s' : Session} {i k : Nat} {t t' : Task} {b b' w : Nat} {turns : List Turn}

/-! ### Calls for different devices -/

/-- The calls of different tasks are for different devices. -/
def Scattered (s : Session) : Prop := ∀ (i k : Nat) (t u : Task), i ≠ k →
  s.tasks[i]? = some t → s.tasks[k]? = some u → t.call.Apart u.call

/-- A task keeps its call. -/
theorem call_of_advance {u : Task} (h : (s.advance k).tasks[i]? = some u) :
    ∃ t, s.tasks[i]? = some t ∧ t.call = u.call := by
  by_cases hk : k = i
  · subst hk
    cases ht : s.tasks[k]? with
    | none =>
      rw [Session.advance, ht] at h
      cases ht.symm.trans h
    | some t =>
      rw [getElem?_advance ht] at h
      cases h
      exact ⟨t, rfl, rfl⟩
  · rw [getElem?_advance_of_ne hk] at h
    exact ⟨u, h, rfl⟩

theorem Scattered.advance (h : s.Scattered) (k : Nat) : (s.advance k).Scattered := by
  intro i i' t u hne ht hu
  obtain ⟨t₀, ht₀, htcall⟩ := call_of_advance ht
  obtain ⟨u₀, hu₀, hucall⟩ := call_of_advance hu
  rw [← htcall, ← hucall]
  exact h i i' t₀ u₀ hne ht₀ hu₀

theorem scattered_opened (s : Session) {calls : List Call} (h : calls.Pairwise Call.Apart) :
    (s.opened calls).Scattered := by
  intro i k t u hne ht hu
  simp only [opened, List.getElem?_map, Option.map_eq_some_iff] at ht hu
  obtain ⟨c, hc, rfl⟩ := ht
  obtain ⟨c', hc', rfl⟩ := hu
  obtain ⟨hi, rfl⟩ := List.getElem?_eq_some_iff.mp hc
  obtain ⟨hk, rfl⟩ := List.getElem?_eq_some_iff.mp hc'
  have hpairs := List.pairwise_iff_getElem.mp h
  rcases Nat.lt_or_gt_of_ne hne with hlt | hlt
  · exact hpairs i k hi hk hlt
  · exact (hpairs k i hk hi hlt).symm

theorem scattered_alone (h : s.tasks = [t]) : s.Scattered := by
  intro i k u u' hne hu hu'
  have hi := (List.getElem?_eq_some_iff.mp hu).1
  have hk := (List.getElem?_eq_some_iff.mp hu').1
  rw [h, List.length_singleton] at hi hk
  omega

/-- No other task has a lock that goes by an address of the device of a call. -/
theorem Reachable.not_held (hs : s.Reachable) (hscattered : s.Scattered)
    (ht : s.tasks[i]? = some t) {start : Nat} (hw : t.stage = .waiting start) {j : Job} {h : Hub}
    {g : Bool} (hj : (t.call.service.job t.call.data h g).outcome = .ok j) {key : LockKey}
    (hkey : j.Needs key) : ¬ s.Held key := by
  have haddress : ∀ {j : Job}, j.Needs key → key.address = j.address := by
    rintro j ⟨o, hlock⟩
    obtain ⟨o', -, ho⟩ := Option.map_eq_some_iff.mp hlock
    cases ho
    rfl
  intro hheld
  obtain ⟨k, u, hu, hholds⟩ := (hs.locked.held key).mp hheld
  cases hst : u.stage with
  | waiting start' => simp [Stage.Holds, hst] at hholds
  | ended finish outcome => simp [Stage.Holds, hst] at hholds
  | running j' began x =>
    rw [hst] at hholds
    obtain ⟨hub, hj'⟩ := hs.runsJobOf u (List.mem_of_getElem? hu) j' began x hst
    obtain ⟨hmem, hread⟩ := Service.address?_of_job hj
    obtain ⟨hmem', hread'⟩ := Service.address?_of_job hj'
    have hsame : j'.device = j.device := by
      rw [← haddress hholds, haddress hkey, hread] at hread'
      exact (Option.some.inj hread').symm
    have hne : i ≠ k := by
      rintro rfl
      cases ht.symm.trans hu
      cases hw.symm.trans hst
    exact hscattered i k t u hne ht hu j.device hmem (hsame ▸ hmem')

/-! ### A call among others and alone -/

/-- A task among others, and its twin that is the only task of another session. -/
structure Mirror (i b b' : Nat) (s s' : Session) (t t' : Task) : Prop where
  reachable : s.Reachable
  reachable' : s'.Reachable
  inTime : s.InTime
  inTime' : s'.InTime
  scattered : s.Scattered
  task : s.tasks[i]? = some t
  tasks : s'.tasks = [t']
  twin : t.Twin b b' t'
  hub : Hub.Alike t.call.address? s.hub s'.hub
  host : s'.host = s.host
  verbose : s'.verbose = s.verbose

theorem Mirror.kept (h : Mirror i b b' s s' t t') : s.tables.Kept s'.tables := by
  have hdata : s'.data = s.data := congrArg Prod.snd h.host
  exact h.reachable.kept.symm.trans (hdata ▸ h.reachable'.kept)

theorem Mirror.task' (h : Mirror i b b' s s' t t') : s'.tasks[0]? = some t' := by
  rw [h.tasks]
  rfl

/-- A turn of another task changes nothing for a task and its twin. -/
theorem Mirror.other {u : Task} (h : Mirror i b b' s s' t t') (hk : k ≠ i) (hf : s.First k u w) :
    Mirror i b b' (s.advance k) s' t t' where
  reachable := h.reachable.advance k
  reachable' := h.reachable'
  inTime := h.inTime.advance h.reachable hf
  inTime' := h.inTime'
  scattered := h.scattered.advance k
  task := (getElem?_advance_of_ne hk).trans h.task
  tasks := h.tasks
  twin := h.twin
  hub := by
    have hmove := (h.reachable.move_touches hf.task).hub
    have hlimit : (s.advance k).hub.limit = s.hub.limit := by
      rw [advance_eq hf.task]
      exact hmove.limit
    have hothers : ∀ a ∈ t.call.address?, (s.advance k).hub.device? a = s.hub.device? a := by
      intro a ha
      rw [advance_eq hf.task]
      exact hmove.others a (h.scattered i k t u (Ne.symm hk) h.task hf.task a ha)
    exact ⟨h.hub.limit.trans hlimit.symm, fun a ha => (h.hub.device a ha).trans (hothers a ha).symm⟩
  host := h.host.trans (s.advance_host k).symm
  verbose := by
    have hmove := (h.reachable.move_touches hf.task).verbose
    rw [advance_eq hf.task]
    exact h.verbose.trans hmove.symm

/-- Two sessions have gained the same calls and events, as long after two starts. -/
structure Gains (b b' : Nat) (o o' s s' : Session) : Prop where
  made : ∃ cs : List CallRecord,
    s.made = o.made ++ cs.map (·.later b) ∧ s'.made = o'.made ++ cs.map (·.later b')
  events : ∃ es : List Event,
    s.events = o.events ++ es.map (·.later b) ∧ s'.events = o'.events ++ es.map (·.later b')

/-- A task that is woken first has a twin that is woken as long after the other start. -/
theorem Mirror.first (h : Mirror i b b' s s' t t') (hf : s.First i t w) : ∃ m, w = b + m ∧
    s'.First 0 t' (b' + m) ∧
    (s.atWake t).hub.now = b + m ∧ (s'.atWake t').hub.now = b' + m := by
  obtain ⟨n, hn, hn'⟩ := h.twin.wake?
  obtain ⟨m, rfl⟩ : ∃ m, n = some m := by
    cases n with
    | none => cases hf.wake.symm.trans hn
    | some m => exact ⟨m, rfl⟩
  refine ⟨m, Option.some.inj (hf.wake.symm.trans hn), ⟨h.task', hn', fun u hu v hv => ?_⟩, ?_, ?_⟩
  · rw [h.tasks, List.mem_singleton] at hu
    subst hu
    exact (Option.some.inj (hn'.symm.trans hv)).le
  · exact now_atWake ((h.inTime t (List.mem_of_getElem? h.task)).le_wake hn) hn
  · exact now_atWake ((h.inTime' t' (List.mem_of_getElem? h.task')).le_wake hn') hn'

/-- When a task and its twin start, neither finds its lock held. -/
theorem Mirror.free (h : Mirror i b b' s s' t t') {start : Nat} (hst : t.stage = .waiting start)
    {j : Job} {hub : Hub} {gateway : Bool}
    (hj : (t.call.service.job t.call.data hub gateway).outcome = .ok j) {key : LockKey}
    (hkey : j.Needs key) : ¬ s.Held key ∧ ¬ s'.Held key := by
  refine ⟨h.reachable.not_held h.scattered h.task hst hj hkey, ?_⟩
  obtain ⟨start', hst'⟩ : ∃ start', t'.stage = .waiting start' := by
    have hstage := h.twin.stage
    rw [hst] at hstage
    generalize t'.stage = st' at hstage ⊢
    cases hstage
    exact ⟨_, rfl⟩
  rw [← h.twin.service, ← h.twin.data] at hj
  exact h.reachable'.not_held (scattered_alone h.tasks) h.task' hst' hj hkey

/-- In one turn each a task and its twin gain the same. -/
theorem Mirror.step (h : Mirror i b b' s s' t t') (hf : s.First i t w) :
    ∃ u u' w', s'.First 0 t' w' ∧ u.call = t.call ∧
      Mirror i b b' (s.advance i) (s'.advance 0) u u' ∧
      Gains b b' s s' (s.advance i) (s'.advance 0) := by
  obtain ⟨m, rfl, hf', hnow, hnow'⟩ := h.first hf
  have hbeside : Beside t.call.address? b b' s s' (s.atWake t) (s'.atWake t') := by
    refine ⟨⟨⟨h.hub.limit, h.hub.device⟩, ⟨m, hnow, hnow'⟩, [], ?_, ?_⟩,
      congrArg Prod.fst h.host, h.verbose, [], ?_, ?_⟩ <;> exact (List.append_nil _).symm
  have hfree : ∀ start, t.stage = .waiting start → ∀ j,
      (t.call.service.job t.call.data (s.atWake t).hub (s.atWake t).hasGateway).outcome = .ok j →
        ∀ key, j.Needs key → ¬ (s.atWake t).Held key ∧ ¬ (s'.atWake t').Held key :=
    fun _ hst _ hj _ hkey => h.free hst hj hkey
  obtain ⟨hstage, hmoved⟩ := hbeside.move h.twin hfree h.kept
  have hadvance := advance_eq h.task
  have hadvance' := advance_eq h.task'
  refine ⟨{ t with stage := ((s.atWake t).move t).1 },
    { t' with stage := ((s'.atWake t').move t').1 }, b' + m, hf', rfl, ?_, ?_⟩
  · exact {
      reachable := h.reachable.advance i
      reachable' := h.reachable'.advance 0
      inTime := h.inTime.advance h.reachable hf
      inTime' := h.inTime'.advance h.reachable' hf'
      scattered := h.scattered.advance i
      task := getElem?_advance h.task
      tasks := by rw [hadvance', h.tasks]; rfl
      twin := ⟨h.twin.service, h.twin.data, h.twin.cancel, hstage⟩
      hub := by rw [hadvance, hadvance']; exact ⟨hmoved.hub.limit, hmoved.hub.device⟩
      host := by rw [s.advance_host, s'.advance_host, h.host]
      verbose := by rw [hadvance, hadvance']; exact hmoved.verbose }
  · rw [hadvance, hadvance']
    exact ⟨hmoved.hub.calls, hmoved.events⟩

/-! ### Whole runs -/

theorem run_of_alone (htasks : s.tasks = [t]) (hf : s.First 0 t w) : s.run = (s.advance 0).run := by
  have hearliest : Task.earliest? s.tasks = some (0, w) := by
    rw [htasks, Task.earliest?, hf.wake]
    rfl
  rw [Session.run]
  split
  · next hnone => cases hnone.symm.trans hearliest
  · next i v hsome =>
    cases hsome.symm.trans hearliest
    rfl

theorem run_of_ended (htasks : s.tasks = [t]) (hnone : t.wake? = none) : s.run = s := by
  have hearliest : Task.earliest? s.tasks = none := by
    rw [htasks, Task.earliest?, hnone]
    rfl
  rw [Session.run]
  split
  · rfl
  · next i v hsome => cases hsome.symm.trans hearliest

/-- What a task gains among others is what its twin gains alone. -/
theorem Mirror.run (h : Mirror i b b' s s' t t') (hturns : s.Timely turns)
    (hidle : (s.after turns).Idle) :
    ∃ u u', u.call = t.call ∧ Mirror i b b' (s.after turns) s'.run u u' ∧
      (∃ cs : List CallRecord, ofTask i (gained made s turns) = cs.map (·.later b) ∧
        s'.run.made = s'.made ++ cs.map (·.later b')) ∧
      (∃ es : List Event, ofTask i (gained events s turns) = es.map (·.later b) ∧
        s'.run.events = s'.events ++ es.map (·.later b')) := by
  induction hturns generalizing s' t t' with
  | nil s =>
    have hrun : s'.run = s' := by
      obtain ⟨n, hn, hn'⟩ := h.twin.wake?
      have hend := hidle t (List.mem_of_getElem? h.task)
      have hnone : t.wake? = none := by
        cases hst : t.stage <;> simp [Task.result?, Task.wake?, Task.isCancelled, Task.due?, hst] at hend ⊢
      cases n with
      | none => exact run_of_ended h.tasks hn'
      | some n => cases hnone.symm.trans hn
    rw [hrun]
    exact ⟨t, t', rfl, h, ⟨[], rfl, (List.append_nil _).symm⟩, [], rfl, (List.append_nil _).symm⟩
  | @cons s k u w turns hf rest ih =>
    rw [ofTask_gained_wake, ofTask_gained_wake]
    by_cases hk : k = i
    · subst hk
      cases h.task.symm.trans hf.task
      obtain ⟨u, u', w', hf', hcall, hnext, hmade, htold⟩ := h.step hf
      obtain ⟨cs, hcs, hcs'⟩ := hmade
      obtain ⟨es, hes, hes'⟩ := htold
      obtain ⟨v, v', hvcall, hend, ⟨cs₁, hcs₁, hcs₁'⟩, es₁, hes₁, hes₁'⟩ := ih hnext hidle
      rw [run_of_alone h.tasks hf']
      refine ⟨v, v', hvcall.trans hcall, hend, ⟨cs ++ cs₁, ?_, ?_⟩, es ++ es₁, ?_, ?_⟩
      · rw [if_pos rfl, hcs, List.drop_left, hcs₁, List.map_append]
      · rw [hcs₁', hcs', List.append_assoc, List.map_append]
      · rw [if_pos rfl, hes, List.drop_left, hes₁, List.map_append]
      · rw [hes₁', hes', List.append_assoc, List.map_append]
    · rw [if_neg hk, if_neg hk]
      exact ih (h.other hk hf) hidle

theorem mirror_opened (hs : s.Reachable) (idle : s.Idle) {calls : List Call}
    (hapart : calls.Pairwise Call.Apart) {c : Call} (hc : calls[i]? = some c) (d : Nat) :
    Mirror i (s.hub.now + c.delay) (s.hub.now + d) (s.opened calls) (s.opened [{ c with delay := d }])
      (Task.ofCall s.hub.now c) (Task.ofCall s.hub.now { c with delay := d }) where
  reachable := .call hs idle calls
  reachable' := .call hs idle _
  inTime := inTime_opened s calls
  inTime' := inTime_opened s _
  scattered := scattered_opened s hapart
  task := by simp only [opened, List.getElem?_map, hc, Option.map_some]
  tasks := rfl
  twin := ⟨rfl, rfl, ⟨c.cancelAfter, rfl, rfl⟩, .waiting⟩
  hub := ⟨rfl, fun _ _ => rfl⟩
  host := rfl
  verbose := rfl

/-- Calls for different devices do not get in each other's way. Running them side by side wakes each
task in time; and in whatever order tasks that wake at one instant go on, each call ends with the
outcome, the calls, the events and the device that it has when it is made alone, all at the same time
after its start. -/
theorem Reachable.independent (hs : s.Reachable) (idle : s.Idle) (calls : List Call)
    (hapart : calls.Pairwise Call.Apart) :
    (∃ turns, (s.opened calls).Timely turns ∧ ((s.opened calls).after turns).Idle ∧
      (s.perform calls).2 = (s.opened calls).after turns) ∧
    ∀ turns, (s.opened calls).Timely turns → ((s.opened calls).after turns).Idle →
      ∀ (i : Nat) (c : Call), calls[i]? = some c → ∀ delay : Nat,
        let together := (s.opened calls).after turns
        let alone := s.perform [{ c with delay }]
        let start := s.hub.now + c.delay
        let start' := s.hub.now + delay
        (∃ n outcome, (together.tasks[i]?).bind Task.result? = some (start + n, outcome) ∧
          alone.1.results = [(start' + n, outcome)]) ∧
        (∃ cs : List CallRecord,
          ofTask i (gained made (s.opened calls) turns) = cs.map (·.later start) ∧
          alone.1.calls = cs.map (·.later start')) ∧
        (∃ es : List Event,
          ofTask i (gained events (s.opened calls) turns) = es.map (·.later start) ∧
          alone.1.events = es.map (·.later start')) ∧
        ∀ a ∈ c.address?, together.hub.device? a = alone.2.hub.device? a := by
  constructor
  · obtain ⟨turns, hturns, hrun⟩ := (s.opened calls).exists_timely_run
    exact ⟨turns, hturns, hrun ▸ (hs.perform idle calls).2, hrun⟩
  · intro turns hturns hend i c hc delay together alone start start'
    obtain ⟨u, u', hcall, hmirror, ⟨cs, hcs, hcs'⟩, es, hes, hes'⟩ :=
      (mirror_opened hs idle hapart hc delay).run hturns hend
    refine ⟨?_, ⟨cs, hcs, hcs'⟩, ⟨es, hes, hes'⟩, fun a ha => ?_⟩
    · have hresult := hend u (List.mem_of_getElem? hmirror.task)
      have hstage := hmirror.twin.stage
      have hresults : alone.1.results = [u'].filterMap Task.result? :=
        congrArg (List.filterMap Task.result?) hmirror.tasks
      rw [hresults, hmirror.task, Option.bind_some]
      unfold Task.result? at hresult ⊢
      generalize u.stage = st at hstage hresult ⊢
      generalize hst' : u'.stage = st' at hstage
      cases hstage with
      | waiting => cases hresult
      | running => cases hresult
      | ended n outcome =>
        refine ⟨n, outcome, rfl, ?_⟩
        simp only [List.filterMap_cons, hst', List.filterMap_nil]
        rfl
    · have haddress : a ∈ u.call.address? := hcall ▸ ha
      exact (hmirror.hub.device a haddress).symm

/-! ### Two devices -/

/-- The address of another device. -/
def otherText : String := "00:1f:ee:00:00:00:56:78"

def otherAddress : Address := ⟨"001fee0000005678".toList⟩

theorem spells_other : Spells otherText otherText otherAddress :=
  .of_lower (by decide +kernel) (by decide) (by decide +kernel)

/-- A session with two slow devices, before any call. -/
def pairSession : Session :=
  { opening .calibration sampleAddress [] with
    hub := { slowHub sampleAddress with devices := [slowDevice sampleAddress, slowDevice otherAddress] } }

theorem pairSession_reachable : pairSession.Reachable :=
  have hsetUp : Session.setUp .null true pairSession.hub = .ok _ := rfl
  .call (.setUp hsetUp) (fun _ h => nomatch h) []

/-- A dimmer is set up, and given up after half a second, while a covering is calibrated: it ends as
it does alone, only later. -/
theorem independent_pair :
    let s := pairSession
    let first := Operation.calibration.call sampleText
    let second := { Operation.dimmerSetup.call otherText with delay := 400, cancelAfter := some 500 }
    s.Reachable ∧ s.Idle ∧ [first, second].Pairwise Call.Apart ∧
    ∃ turns, (s.opened [first, second]).Timely turns ∧
      (s.perform [first, second]).2 = (s.opened [first, second]).after turns ∧
      ∃ n outcome, (((s.opened [first, second]).after turns).tasks[1]?).bind Task.result? =
          some (400 + n, outcome) ∧
        (s.perform [{ second with delay := 0 }]).1.results = [(0 + n, outcome)] := by
  intro s first second
  have hs : s.Reachable := pairSession_reachable
  have idle : s.Idle := fun _ h => nomatch h
  have hfirst : first.address? = some sampleAddress :=
    Call.address?_of_names (Operation.calibration.call_names _) spells_sample
  have hother : (Operation.dimmerSetup.call otherText).address? = some otherAddress :=
    Call.address?_of_names (Operation.dimmerSetup.call_names _) spells_other
  have hsecond : second.address? = some otherAddress := hother
  have hapart : [first, second].Pairwise Call.Apart := by
    refine .cons (fun c hc => ?_) (.cons nofun .nil)
    rw [List.mem_singleton] at hc
    subst hc
    intro a ha ha'
    rw [hfirst] at ha
    rw [hsecond] at ha'
    cases ha
    exact absurd (Option.some.inj ha') (by decide)
  obtain ⟨⟨turns, htimely, hend, hrun⟩, hsame⟩ := hs.independent idle [first, second] hapart
  obtain ⟨⟨n, outcome, htogether, halone⟩, -⟩ := hsame turns htimely hend 1 second rfl 0
  have hstart : pairSession.hub.now + second.delay = 400 := rfl
  have hstart' : pairSession.hub.now + 0 = 0 := rfl
  rw [hstart] at htogether
  rw [hstart'] at halone
  exact ⟨hs, idle, hapart, turns, htimely, hrun, n, outcome, htogether, halone⟩

end Session

end Commissioning

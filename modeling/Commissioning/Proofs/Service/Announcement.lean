import Commissioning.Proofs.Covering.Exchanges
import Commissioning.Proofs.Service.LockProtocol
import Commissioning.Proofs.Service.Turns
import Commissioning.Proofs.Value.Entries

/-!
What is told about calibrations. A task tells nothing until its job ends, and then it tells the end
of the job once, while it still holds its lock; a task that is turned down or cancelled tells nothing.

    waiting ── let in ──▶ running ──┬─ ends ───▶ told, lock given back
       └─ turned down: nothing      └─ cancelled: nothing
-/
namespace Commissioning

namespace Session
variable {s : Session} {i : Nat} {t : Task} {j : Job} {began finish : Nat} {outcome : Outcome Entries}
  {turns : List Turn}

/-! ### What happens in a turn -/

/-- In one of some turns the task at a position is woken, from a session of a kind. -/
def Occurs (s : Session) (turns : List Turn) (i : Nat) (P : Session → Prop) : Prop :=
  ∃ before later, turns = before ++ .wake i :: later ∧ P (s.after before)

theorem occurs_cons {P : Session → Prop} (turn : Turn) : Occurs s (turn :: turns) i P ↔
    turn = .wake i ∧ P s ∨ Occurs (s.turn turn) turns i P := by
  constructor
  · rintro ⟨before, later, hturns, hP⟩
    cases before with
    | nil =>
      cases hturns
      exact .inl ⟨rfl, hP⟩
    | cons b before =>
      cases hturns
      exact .inr ⟨before, later, rfl, hP⟩
  · rintro (⟨rfl, hP⟩ | ⟨before, later, rfl, hP⟩)
    · exact ⟨[], turns, rfl, hP⟩
    · exact ⟨turn :: before, later, rfl, hP⟩

/-- The task at a position is about to start, and nothing keeps its job from running. -/
structure LetsIn (s : Session) (i : Nat) (t : Task) (j : Job) : Prop where
  task : s.tasks[i]? = some t
  waiting : ∃ start, t.stage = .waiting start
  job : (s.jobOf t).outcome = .ok j
  free : ∀ k, j.Needs k → ¬ s.Held k ∧ s.Proper k

theorem LetsIn.unique {t' : Task} {j' : Job} (h : s.LetsIn i t j) (h' : s.LetsIn i t' j') :
    t' = t ∧ j' = j := by
  have ht := h'.task
  rw [h.task] at ht
  cases ht
  exact ⟨rfl, Except.ok.inj (h'.job.symm.trans h.job)⟩

/-- In some turns the task at a position has been let in, as a job that began at a time. -/
def Admitted (s : Session) (turns : List Turn) (i : Nat) (j : Job) (began : Nat) : Prop :=
  Occurs s turns i fun s => ∃ t, s.LetsIn i t j ∧ began = (s.atWake t).hub.now

/-- In some turns the task at a position has been cancelled. -/
def Cancelled (s : Session) (turns : List Turn) (i : Nat) : Prop :=
  Occurs s turns i fun s => ∃ t, s.tasks[i]? = some t ∧ t.isCancelled

/-- In one of some turns events have been told for the task at a position, and only then the lock of
its job was given back. -/
def ToldHolding (s : Session) (turns : List Turn) (i : Nat) (j : Job) (told : List Event) : Prop :=
  Occurs s turns i fun s => ∃ mid : Session, mid.events = s.events ++ told ∧
    (∀ k, j.Needs k → mid.Held k ∧ ¬ (s.advance i).Held k) ∧
    ∃ tasks, s.advance i = { mid.release j with tasks }

/-! ### One turn -/

/-- A job that goes on tells nothing before it ends; then its lock is given back last. -/
theorem settle_tells (began : Nat) (r : Activity Entries × Hub) (hj : ∀ k, j.Needs k → s.Held k) :
    ((s.settle j began r).1 = .running j began r.1 ∧ (s.settle j began r).2.events = s.events) ∨
    ∃ (outcome : Outcome Entries) (mid : Session), (s.settle j began r).1 = .ended r.2.now outcome ∧
      mid.events = s.events ++ (j.event? began r.2.now outcome).toList ∧
      (∀ k, j.Needs k → mid.Held k) ∧ (s.settle j began r).2 = mid.release j := by
  obtain ⟨activity, hub⟩ := r
  cases activity with
  | ended outcome =>
    exact .inr ⟨outcome, ({ s with hub } : Session).conclude j began outcome, rfl, rfl, hj, rfl⟩
  | pausing wake rest => exact .inl ⟨rfl, rfl⟩
  | calling wake x next => exact .inl ⟨rfl, rfl⟩

/-- A job whose lock is free, or that needs none, is launched with its lock held. -/
theorem enter_of_needs (h : ∀ k, j.Needs k → ¬ s.Held k ∧ s.tables.Proper k) :
    ∃ s' : Session, s'.hub = s.hub ∧ s'.events = s.events ∧ (∀ k, j.Needs k → s'.Held k) ∧
      s.enter j = s'.launch j := by
  cases hlock : j.lock? with
  | none =>
    have hnone : ∀ k, ¬ j.Needs k := by simp [Job.Needs, hlock]
    refine ⟨s, rfl, rfl, fun k hk => absurd hk (hnone k), ?_⟩
    simp only [enter, hlock]
  | some lock =>
    obtain ⟨o, k⟩ := lock
    obtain ⟨hfree, hproper⟩ := h k ⟨o, hlock⟩
    obtain ⟨tables, hthere, henter⟩ := enter_of_free hlock hfree hproper
    refine ⟨setLock { s with tables } k .held, rfl, rfl, ?_, henter⟩
    rintro k' ⟨o', hk'⟩
    rw [hlock] at hk'
    cases hk'
    exact (held_setLock_held (by simp [hthere]) _).mpr (.inl rfl)

theorem EndsWith.task {e : Fault} (h : s.EndsWith i t e) (ht : s.tasks[i]? = some t) :
    ∃ t' finish, (s.advance i).tasks[i]? = some t' ∧ t'.call = t.call ∧
      t'.stage = .ended finish (.error e) := by
  rw [h.tasks, List.getElem?_set_self (List.getElem?_eq_some_iff.mp ht).1]
  exact ⟨_, _, rfl, rfl, rfl⟩

/-- A call that starts is let in and runs, or it ends at once with an error. -/
theorem Reachable.advance_waiting (hs : s.Reachable) (ht : s.tasks[i]? = some t)
    (hw : ∃ start, t.stage = .waiting start) :
    (∃ (j : Job) (s' : Session), s.LetsIn i t j ∧
      s'.hub = ((s.atWake t).write (s.jobOf t).log).hub ∧
      s'.events = s.events ∧ (∀ k, j.Needs k → s'.Held k) ∧
      s.advance i = { (s'.launch j).2 with
        tasks := s.tasks.set i { t with stage := (s'.launch j).1 } }) ∨
    (∀ j, ¬ s.LetsIn i t j) ∧ ∃ e, s.EndsWith i t e := by
  obtain ⟨start, hstart⟩ := hw
  have hmove : (s.atWake t).move t = (s.atWake t).start t.call := by simp only [move, hstart]
  cases hjob : (s.jobOf t).outcome with
  | error e =>
    refine .inr ⟨fun j h => ?_, e, ?_⟩
    · cases hjob.symm.trans h.job
    · exact endsWith_of_error ht ⟨start, hstart⟩ hjob
  | ok j =>
    have hother : ∀ j', s.LetsIn i t j' → j' = j := fun j' h =>
      Except.ok.inj (h.job.symm.trans hjob)
    by_cases hfree : ∀ k, j.Needs k → ¬ s.Held k ∧ s.Proper k
    · have hneeds : ∀ k, j.Needs k → ¬ ((s.atWake t).write (s.jobOf t).log).Held k ∧
          ((s.atWake t).write (s.jobOf t).log).tables.Proper k :=
        fun k hk => ⟨(hfree k hk).1, (hs.proper k).mpr (hfree k hk).2⟩
      obtain ⟨s', hhub, hevents, hheld, henter⟩ := enter_of_needs hneeds
      refine .inl ⟨j, s', ⟨ht, ⟨start, hstart⟩, hjob, hfree⟩, hhub, hevents, hheld, ?_⟩
      rw [advance_eq ht, hmove, start_of_job hjob, henter]
    · obtain ⟨k, hk⟩ := not_forall.mp hfree
      obtain ⟨hneeds, hnot⟩ := Classical.not_imp.mp hk
      obtain ⟨o, hlock⟩ := hneeds
      have hstarts : s.Starts i t j o k := ⟨ht, ⟨start, hstart⟩, hjob, hlock⟩
      refine .inr ⟨fun j' h => ?_, ?_⟩
      · cases hother j' h
        exact hnot (h.free k ⟨o, hlock⟩)
      · by_cases hheld : s.Held k
        · exact ⟨_, hs.locked.refused hstarts ((hs.locked.held k).mp hheld)⟩
        · obtain ⟨e, he⟩ := hs.improper hstarts fun hp => hnot ⟨hheld, hp⟩
          exact ⟨_, he⟩

/-! ### From turn to turn -/

/-- What has become of a running task in some turns, with the events that it has told. -/
inductive Ends (s : Session) (turns : List Turn) (i : Nat) (j : Job) (began : Nat) :
    Stage → List Event → Prop where
  | running (activity : Activity Entries) (hc : ¬ s.Cancelled turns i) :
    Ends s turns i j began (.running j began activity) []
  | cancelled (finish : Nat) (hc : s.Cancelled turns i) :
    Ends s turns i j began (.ended finish (.error .cancelled)) []
  | told (finish : Nat) (outcome : Outcome Entries) (hc : ¬ s.Cancelled turns i)
    (hh : s.ToldHolding turns i j (j.event? began finish outcome).toList) :
    Ends s turns i j began (.ended finish outcome) (j.event? began finish outcome).toList

/-- What is told in later turns of another session is told in all turns of this one. -/
theorem Ends.cons (turn : Turn) {st : Stage} {told : List Event}
    (h : Ends (s.turn turn) turns i j began st told)
    (hc : ∀ t, turn = .wake i → s.tasks[i]? = some t → ¬ t.isCancelled) :
    Ends s (turn :: turns) i j began st told := by
  have hcancelled : s.Cancelled (turn :: turns) i ↔ (s.turn turn).Cancelled turns i := by
    refine (occurs_cons turn).trans (or_iff_right ?_)
    rintro ⟨hturn, t, ht, hct⟩
    exact hc t hturn ht hct
  cases h with
  | running activity hnot => exact .running activity (mt hcancelled.mp hnot)
  | cancelled finish hyes => exact .cancelled finish (hcancelled.mpr hyes)
  | told finish outcome hnot hheld =>
    exact .told finish outcome (mt hcancelled.mp hnot) ((occurs_cons turn).mpr (.inr hheld))

/-- Nothing happens to a task that has ended. -/
theorem not_occurs_of_ended {P : Session → Prop} (ht : s.tasks[i]? = some t)
    (hend : t.stage = .ended finish outcome)
    (hP : ∀ s', P s' → ∃ t', s'.tasks[i]? = some t' ∧ t'.result? = none) : ¬ Occurs s turns i P := by
  rintro ⟨before, later, rfl, hbefore⟩
  obtain ⟨t', ht', hnone⟩ := hP _ hbefore
  have hstays := (after_of_ended (fun _ _ h => h.events) ht hend before).1
  rw [hstays] at ht'
  cases ht'
  simp [Task.result?, hend] at hnone

theorem result?_of_cancelled (hc : t.isCancelled) : t.result? = none := by
  unfold Task.isCancelled at hc
  unfold Task.result?
  cases hst : t.stage with
  | waiting start => rfl
  | running j began activity => rfl
  | ended finish outcome => simp [hst] at hc

theorem not_cancelled_of_ended (ht : s.tasks[i]? = some t) (hend : t.stage = .ended finish outcome) :
    ¬ s.Cancelled turns i := by
  refine not_occurs_of_ended ht hend ?_
  rintro s' ⟨t', ht', hc⟩
  exact ⟨t', ht', result?_of_cancelled hc⟩

/-- A job that ends in a turn tells its end in that turn, before its lock is given back. -/
theorem ends_of_release {mid : Session} (ht : s.tasks[i]? = some t) (hc : ¬ t.isCancelled)
    (hadvance : s.advance i = { mid.release j with
      tasks := s.tasks.set i { t with stage := .ended finish outcome } })
    (htold : mid.events = s.events ++ (j.event? began finish outcome).toList)
    (hheld : ∀ k, j.Needs k → mid.Held k) (turns : List Turn) :
    ∃ t', ((s.advance i).after turns).tasks[i]? = some t' ∧ t'.call = t.call ∧
      Ends s (.wake i :: turns) i j began t'.stage
        (ofTask i (gained events s (.wake i :: turns))) := by
  have hu : (s.advance i).tasks[i]? = some { t with stage := .ended finish outcome } := by
    rw [hadvance]
    exact List.getElem?_set_self (List.getElem?_eq_some_iff.mp ht).1
  have hgain : (s.advance i).events = s.events ++ (j.event? began finish outcome).toList := by
    rw [hadvance, (release_keeps mid j).2, htold]
  obtain ⟨hstays, hrest⟩ := after_of_ended (fun _ _ h => h.events) hu rfl turns
  rw [ofTask_gained_wake, if_pos rfl, hgain, List.drop_left, hrest, List.append_nil]
  refine ⟨_, hstays, rfl, .told finish outcome ?_ ?_⟩
  · intro hcancelled
    rcases (occurs_cons _).mp hcancelled with ⟨-, t', ht', hct⟩ | hlater
    · rw [ht] at ht'
      cases ht'
      exact hc hct
    · exact not_cancelled_of_ended hu rfl hlater
  · refine (occurs_cons _).mpr (.inl ⟨rfl, mid, htold, fun k hk => ⟨hheld k hk, ?_⟩, _, hadvance⟩)
    have htables : (s.advance i).tables = (mid.release j).tables := by rw [hadvance]
    rw [held_of_tables htables, held_release]
    exact fun h => h.2 hk

/-- A job that goes on in a turn, and all that becomes of its task after that turn. -/
theorem ends_of_settle {s₁ : Session} {r : Activity Entries × Hub} (ht : s.tasks[i]? = some t)
    (hadvance : s.advance i = { (s₁.settle j began r).2 with
      tasks := s.tasks.set i { t with stage := (s₁.settle j began r).1 } })
    (hevents : s₁.events = s.events) (hheld : ∀ k, j.Needs k → s₁.Held k)
    (hc : ¬ t.isCancelled) (turns : List Turn)
    (hrunning : ∀ u, (s.advance i).tasks[i]? = some u → u.stage = .running j began r.1 →
      ∃ t', ((s.advance i).after turns).tasks[i]? = some t' ∧ t'.call = u.call ∧
        Ends (s.advance i) turns i j began t'.stage
          (ofTask i (gained events (s.advance i) turns))) :
    ∃ t', ((s.advance i).after turns).tasks[i]? = some t' ∧ t'.call = t.call ∧
      Ends s (.wake i :: turns) i j began t'.stage
        (ofTask i (gained events s (.wake i :: turns))) := by
  rcases settle_tells began r hheld with ⟨hst, hsame⟩ | ⟨outcome, mid, hst, htold, hmid, hrelease⟩
  · have hu : (s.advance i).tasks[i]? = some { t with stage := (s₁.settle j began r).1 } := by
      rw [hadvance]
      exact List.getElem?_set_self (List.getElem?_eq_some_iff.mp ht).1
    have hquiet : (s.advance i).events = s.events := by
      rw [hadvance]
      exact hsame.trans hevents
    obtain ⟨t', ht', hcall, hends⟩ := hrunning _ hu hst
    rw [ofTask_gained_wake, if_pos rfl, hquiet, List.drop_length, List.nil_append]
    refine ⟨t', ht', hcall, .cons (.wake i) hends fun u _ hu' => ?_⟩
    rw [ht] at hu'
    cases hu'
    exact hc
  · rw [hst, hrelease] at hadvance
    exact ends_of_release ht hc hadvance (hevents ▸ htold) hmid turns

/-- What becomes of a running task. -/
theorem Reachable.ends_of_running (hs : s.Reachable) {activity : Activity Entries}
    (ht : s.tasks[i]? = some t) (hst : t.stage = .running j began activity) (turns : List Turn) :
    ∃ t', (s.after turns).tasks[i]? = some t' ∧ t'.call = t.call ∧
      Ends s turns i j began t'.stage (ofTask i (gained events s turns)) := by
  induction turns generalizing s t activity with
  | nil =>
    refine ⟨t, ht, rfl, ?_⟩
    rw [hst]
    refine .running activity ?_
    rintro ⟨before, later, hturns, -⟩
    simp at hturns
  | cons turn turns ih =>
    cases turn with
    | arrange a f =>
      obtain ⟨t', ht', hcall, hends⟩ := ih (hs.arrange a f) (s := s.arrange a f) ht hst
      exact ⟨t', ht', hcall, .cons (.arrange a f) hends fun _ hturn => by cases hturn⟩
    | wake k =>
      by_cases hk : k = i
      · subst hk
        by_cases hc : t.isCancelled
        · have hend : ((s.atWake t).move t).1 = .ended _ (.error .cancelled) :=
            congrArg Prod.fst (move_of_cancelled hst hc)
          obtain ⟨hstays, -⟩ :=
            after_of_ended (fun _ _ h => h.events) (getElem?_advance ht) hend turns
          rw [ofTask_of_cancelled (fun _ _ h => h.events) ht hc]
          refine ⟨_, hstays, rfl, ?_⟩
          change Ends s (.wake k :: turns) k j began ((s.atWake t).move t).1 []
          rw [hend]
          exact .cancelled _ ((occurs_cons _).mpr (.inl ⟨rfl, t, ht, hc⟩))
        · have hmove : (s.atWake t).move t =
              (s.atWake t).settle j began (activity.resume j.device (s.atWake t).hub) := by
            simp only [move, hst, if_neg hc]
          have hadvance := advance_eq ht
          rw [hmove] at hadvance
          refine ends_of_settle ht hadvance rfl ?_ hc turns ?_
          · exact fun k' hk' => (hs.locked.held k').mpr ⟨k, t, ht, by rw [hst]; exact hk'⟩
          · exact fun u hu hu' => ih (hs.advance k) hu hu'
      · obtain ⟨t', ht', hcall, hends⟩ :=
          ih (hs.advance k) (s := s.advance k) ((getElem?_advance_of_ne hk).trans ht) hst
        rw [ofTask_gained_wake, if_neg hk]
        refine ⟨t', ht', hcall, .cons (.wake k) hends fun _ hturn => ?_⟩
        cases hturn
        exact absurd rfl hk

/-- A task that has been let in is not let in again. -/
theorem not_admitted_of_running (hs : s.Reachable) {activity : Activity Entries}
    (ht : s.tasks[i]? = some t) (hst : t.stage = .running j began activity) (turns : List Turn)
    (j' : Job) (began' : Nat) : ¬ s.Admitted turns i j' began' := by
  rintro ⟨before, later, -, t', hlets, -⟩
  obtain ⟨u, hu, -, hends⟩ := hs.ends_of_running ht hst before
  obtain ⟨start, hstart⟩ := hlets.waiting
  rw [hlets.task] at hu
  cases hu
  rw [hstart] at hends
  cases hends

theorem not_admitted_of_ended (ht : s.tasks[i]? = some t) (hend : t.stage = .ended finish outcome)
    (j : Job) (began : Nat) : ¬ s.Admitted turns i j began := by
  refine not_occurs_of_ended ht hend ?_
  rintro s' ⟨t', hlets, -⟩
  obtain ⟨start, hstart⟩ := hlets.waiting
  refine ⟨t', hlets.task, ?_⟩
  simp [Task.result?, hstart]

/-- What has become of a call in some turns, with the events that it has told: it has never been let
in, or it has once, and then as the job of that call. -/
inductive Fate (s : Session) (turns : List Turn) (i : Nat) (c : Call) : Stage → List Event → Prop where
  | outside (st : Stage) (hno : ∀ j began, ¬ s.Admitted turns i j began) : Fate s turns i c st []
  | inside {st : Stage} {told : List Event} (j : Job) (began : Nat)
    (hjob : ∃ hub gateway, (c.service.job c.data hub gateway).outcome = .ok j)
    (hin : s.Admitted turns i j began)
    (honce : ∀ j' began', s.Admitted turns i j' began' → j' = j ∧ began' = began)
    (hends : Ends s turns i j began st told) : Fate s turns i c st told

theorem Fate.cons (turn : Turn) {c : Call} {st : Stage} {told : List Event}
    (h : Fate (s.turn turn) turns i c st told) (hturn : turn ≠ .wake i) :
    Fate s (turn :: turns) i c st told := by
  have hlater : ∀ P : Session → Prop, Occurs s (turn :: turns) i P ↔ Occurs (s.turn turn) turns i P :=
    fun P => (occurs_cons turn).trans (or_iff_right fun h => hturn h.1)
  cases h with
  | outside hno => exact .outside st fun j began => mt (hlater _).mp (hno j began)
  | inside j began hjob hin honce hends =>
    refine .inside j began hjob ((hlater _).mpr hin) ?_ (hends.cons turn fun _ h => absurd h hturn)
    exact fun j' began' h => honce j' began' ((hlater _).mp h)

/-- A call that is let in is let in once, whatever happens later. -/
theorem Reachable.fate_of_letsIn (hs : s.Reachable) (hlets : s.LetsIn i t j) {s' : Session}
    (hhub : s'.hub = ((s.atWake t).write (s.jobOf t).log).hub) (hevents : s'.events = s.events)
    (hheld : ∀ k, j.Needs k → s'.Held k)
    (hadvance : s.advance i = { (s'.launch j).2 with
      tasks := s.tasks.set i { t with stage := (s'.launch j).1 } }) (turns : List Turn) :
    ∃ t', ((s.advance i).after turns).tasks[i]? = some t' ∧ t'.call = t.call ∧
      Fate s (.wake i :: turns) i t.call t'.stage
        (ofTask i (gained events s (.wake i :: turns))) := by
  have ht := hlets.task
  have hc : ¬ t.isCancelled := by
    obtain ⟨start, hstart⟩ := hlets.waiting
    simp [Task.isCancelled, hstart]
  have hnow : s'.hub.now = (s.atWake t).hub.now := by rw [hhub]; rfl
  obtain ⟨t', ht', hcall, hends⟩ := ends_of_settle ht hadvance hevents hheld hc turns
    fun u hu hst => (hs.advance i).ends_of_running hu hst turns
  refine ⟨t', ht', hcall, ?_⟩
  -- after this turn the task is running or has ended, so it is not let in again
  have hlater : ∀ j' began', ¬ (s.advance i).Admitted turns i j' began' := by
    intro j' began'
    have hu : (s.advance i).tasks[i]? = some { t with stage := (s'.launch j).1 } := by
      rw [hadvance]
      exact List.getElem?_set_self (List.getElem?_eq_some_iff.mp ht).1
    rcases settle_tells s'.hub.now _ hheld with ⟨hst, -⟩ | ⟨outcome, mid, hst, -⟩
    · exact not_admitted_of_running (hs.advance i) hu hst turns j' began'
    · exact not_admitted_of_ended hu hst j' began'
  refine .inside j _ ⟨_, _, hlets.job⟩ ?_ ?_ hends
  · exact (occurs_cons _).mpr (.inl ⟨rfl, t, hlets, hnow⟩)
  · intro j' began' hadmitted
    rcases (occurs_cons _).mp hadmitted with ⟨-, t', hlets', rfl⟩ | hadmitted
    · obtain ⟨rfl, rfl⟩ := hlets.unique hlets'
      exact ⟨rfl, hnow.symm⟩
    · exact absurd hadmitted (hlater j' began')

/-- A call that is turned down as it starts is never let in. -/
theorem fate_of_endsWith {e : Fault} (h : s.EndsWith i t e) (ht : s.tasks[i]? = some t)
    (hno : ∀ j, ¬ s.LetsIn i t j) (turns : List Turn) :
    ∃ t', ((s.advance i).after turns).tasks[i]? = some t' ∧ t'.call = t.call ∧
      Fate s (.wake i :: turns) i t.call t'.stage
        (ofTask i (gained events s (.wake i :: turns))) := by
  obtain ⟨u, finish, hu, hcall, hst⟩ := h.task ht
  obtain ⟨hstays, hrest⟩ := after_of_ended (fun _ _ h => h.events) hu hst turns
  rw [ofTask_gained_wake, h.events, List.drop_length, hrest, ite_self]
  refine ⟨u, hstays, hcall, .outside _ fun j began hadmitted => ?_⟩
  rcases (occurs_cons _).mp hadmitted with ⟨-, t', hlets, -⟩ | hadmitted
  · have ht' := hlets.task
    rw [ht] at ht'
    cases ht'
    exact hno j hlets
  · exact not_admitted_of_ended hu hst j began hadmitted

/-- What becomes of a call that waits for its start. -/
theorem Reachable.fate (hs : s.Reachable) (ht : s.tasks[i]? = some t)
    (hw : ∃ start, t.stage = .waiting start) (turns : List Turn) :
    ∃ t', (s.after turns).tasks[i]? = some t' ∧ t'.call = t.call ∧
      Fate s turns i t.call t'.stage (ofTask i (gained events s turns)) := by
  induction turns generalizing s with
  | nil =>
    refine ⟨t, ht, rfl, .outside _ ?_⟩
    rintro j began ⟨before, later, hturns, -⟩
    simp at hturns
  | cons turn turns ih =>
    cases turn with
    | arrange a f =>
      obtain ⟨t', ht', hcall, hfate⟩ := ih (s := s.arrange a f) (hs.arrange a f) ht
      exact ⟨t', ht', hcall, .cons (.arrange a f) hfate nofun⟩
    | wake k =>
      by_cases hk : k = i
      · subst hk
        rcases hs.advance_waiting ht hw with
          ⟨j, s', hlets, hhub, hevents, hheld, hadvance⟩ | ⟨hno, e, hend⟩
        · exact hs.fate_of_letsIn hlets hhub hevents hheld hadvance turns
        · exact fate_of_endsWith hend ht hno turns
      · obtain ⟨t', ht', hcall, hfate⟩ := ih (hs.advance k) ((getElem?_advance_of_ne hk).trans ht)
        rw [ofTask_gained_wake, if_neg hk]
        refine ⟨t', ht', hcall, .cons (.wake k) hfate fun hturn => ?_⟩
        cases hturn
        exact hk rfl

end Session

/-! ### Calibrations -/

/-- What the events about a call show of it: the address as locks have it, and whether a calibration
is asked for. -/
def Call.IsAbout (c : Call) (x : String) (calibrate : Bool) : Prop :=
  ∃ given, c.service.form.check c.data = .ok given ∧
    normalizedAddress (given.get Key.address) = .ok x ∧
    (given.get Covering.calibrateKey).isTruthy = calibrate

namespace Job
variable {c : Call} {j : Job} {hub : Hub} {gateway : Bool}

/-- The job of a call for a covering is about what the call is about. -/
theorem of_covering (hc : c.service = .configureCovering)
    (hj : (c.service.job c.data hub gateway).outcome = .ok j) :
    ∃ o, j.purpose = .configureCovering o ∧ c.IsAbout j.address o.calibrate := by
  obtain ⟨given, f, d, hgiven, haddress, hf, -, hp, -⟩ := Service.job_eq_ok.mp hj
  rw [hc] at hf
  obtain ⟨o, ho, hf⟩ := Logged.bind_outcome_eq_ok.mp hf
  cases hf
  refine ⟨o, (Except.ok.inj hp).symm, given, hgiven, haddress, ?_⟩
  obtain ⟨entries, hentries, hof⟩ := Covering.validate_ok ho
  cases hentries
  have hkey : Covering.calibrateKey ≠ Key.address := by decide
  rw [hof.calibrate, Entries.get, Entries.get, ← Entries.get?_leave given hkey]

/-- No event tells about the job of another service. -/
theorem event?_of_other (hc : c.service ≠ .configureCovering)
    (hj : (c.service.job c.data hub gateway).outcome = .ok j) (began finish : Nat)
    (outcome : Outcome Entries) : j.event? began finish outcome = none := by
  obtain ⟨given, f, d, -, -, hf, -, hp, -⟩ := Service.job_eq_ok.mp hj
  have hoperation := purpose_operation hf hp
  unfold event?
  cases hpurpose : j.purpose with
  | configureCovering o =>
    rw [hpurpose] at hoperation
    cases hservice : c.service <;> simp_all [Service.operation?, Purpose.operation?]
  | _ => rfl

end Job

namespace Session
variable {s : Session}

/-- In every session, in whatever order tasks move on and devices change, all events are put down to
calls. A call that has been let in to configure a covering, and that has ended without having been
cancelled, has told one event, which shows whose it is and how it ended, and it has told it before it
gave its lock back. Other calls have told nothing: those of other services, those that have not been
let in, those that have been cancelled and those that have not ended. -/
theorem Reachable.calibration_events (hs : s.Reachable) (idle : s.Idle) (calls : List Call)
    (turns : List Turn) :
    let s₀ := s.opened calls
    let told := gained events s₀ turns
    (s₀.after turns).events = told.map Prod.snd ∧
    ∀ (i : Nat) (c : Call), calls[i]? = some c → ∃ t, (s₀.after turns).tasks[i]? = some t ∧
      t.call = c ∧
      (c.service ≠ .configureCovering ∨ (∀ j began, ¬ s₀.Admitted turns i j began) ∨
        s₀.Cancelled turns i ∨ t.result? = none → NotBy i told) ∧
      (c.service = .configureCovering → ¬ s₀.Cancelled turns i →
        ∀ j began finish outcome, s₀.Admitted turns i j began → t.stage = .ended finish outcome →
        ∃ x calibrate, c.IsAbout x calibrate ∧
          j.lock? = some (.calibration, ⟨Operation.calibration.name, x⟩) ∧
          s₀.ToldHolding turns i j (ofTask i told) ∧
          (∀ report, outcome = .ok report → ofTask i told = [⟨finish, Event.complete, [
            ("device_ieee", .str x), (Covering.calibrateKey, .bool calibrate),
            ("duration_s", elapsedValue (finish - began)),
            (Attribute.totalSteps, report.get Attribute.totalSteps)]⟩]) ∧
          (∀ e, outcome = .error e → ofTask i told = [⟨finish, Event.failed, [
            ("device_ieee", .str x), (Covering.calibrateKey, .bool calibrate),
            ("error", .str e.message), ("error_type", .str e.category.label)]⟩])) := by
  intro s₀ told
  have hs₀ : s₀.Reachable := .call hs idle calls
  refine ⟨record_after (fun s i => (s.advance_grows i).events) (fun _ _ _ => rfl) turns, ?_⟩
  intro i c hc
  have ht₀ : s₀.tasks[i]? = some (Task.ofCall s.hub.now c) := by
    simp only [s₀, opened, List.getElem?_map, hc, Option.map_some]
  obtain ⟨t, ht, hcall, hfate⟩ := hs₀.fate ht₀ ⟨_, rfl⟩ turns
  refine ⟨t, ht, hcall, ?_, ?_⟩
  · intro hquiet
    rw [notBy_iff]
    generalize hst : t.stage = st at hfate
    generalize htold : ofTask i told = list at hfate ⊢
    cases hfate with
    | outside hno => rfl
    | inside j began hjob hin honce hends =>
      obtain ⟨hub, gateway, hj⟩ := hjob
      cases hends with
      | running => rfl
      | cancelled => rfl
      | told finish outcome hnot hholding =>
        rcases hquiet with hother | hno | hcancelled | hnone
        · rw [Job.event?_of_other hother hj]
          rfl
        · exact absurd hin (hno j began)
        · exact absurd hcancelled hnot
        · simp [Task.result?, hst] at hnone
  · intro hservice hnot j began finish outcome hin hend
    rw [hend] at hfate
    generalize htold : ofTask i told = events at hfate ⊢
    cases hfate with
    | outside hno => exact absurd hin (hno j began)
    | inside j' began' hjob hin' honce hends =>
      obtain ⟨rfl, rfl⟩ := honce j began hin
      obtain ⟨hub, gateway, hj⟩ := hjob
      obtain ⟨o, hpurpose, habout⟩ := Job.of_covering hservice hj
      cases hends with
      | cancelled _ hcancelled => exact absurd hcancelled hnot
      | told _ _ _ hholding =>
        refine ⟨j.address, o.calibrate, habout, ?_, hholding, ?_, ?_⟩
        · simp only [Job.lock?, hpurpose]
          rfl
        · rintro report rfl
          simp only [Job.event?, hpurpose]
          rfl
        · rintro e rfl
          simp only [Job.event?, hpurpose]
          rfl

/-- A hub whose device has no clusters. -/
def bareHub (a : Address) : Hub := { slowHub a with devices := [{ slowDevice a with clusters := [] }] }

/-- A session on it, before any call. -/
def bareSession (a : Address) : Session := { opening .calibration a [] with hub := bareHub a }

theorem cluster_write (s : Session) (lines : Log) (a : Address) (c : Cluster) :
    (s.write lines).hub.cluster a c = s.hub.cluster a c := rfl

theorem start_configure_of_missing {a : Address} {h : Hub} {e : LinkError}
    (hc : h.cluster a .windowCovering = .error e) {o : Covering.Options}
    (ho : (Value.dict o.announcement).isShowable = true) (verbose : Bool) :
    ∃ h', Activity.start a h (Covering.configure o verbose) = (.ended (.error (.link e)), h') ∧
      h'.now = h.now := by
  obtain ⟨lines, next, hconfigure, hnext⟩ : ∃ (lines : Log)
      (next : Nat → Outcome Entries → Procedure Entries), Covering.configure o verbose =
      .ask .clock (fun n => .ask (.log lines) fun _ => .ask (.exchange Covering.modeRead) (next n)) ∧
      ∀ n fault, next n (.error fault) = .fail fault := by
    rw [Covering.configure, Covering.announce_of_isShowable ho]
    exact ⟨_, _, rfl, fun _ _ => rfl⟩
  have hbegin : (h.write lines).begin a Covering.modeRead =
      (.closed (.error (.link e)), h.write lines) := by
    have hc' : (h.write lines).cluster a Covering.modeRead.cluster = .error e := hc
    simp only [Hub.begin, hc']
  refine ⟨h.write lines, ?_, rfl⟩
  rw [hconfigure]
  simp only [Activity.start, hbegin, hnext]

theorem launch_of_missing {s : Session} {a : Address} {e : LinkError}
    (hc : s.hub.cluster a .windowCovering = .error e) {o : Covering.Options}
    (ho : (Value.dict o.announcement).isShowable = true) (x : String) :
    (s.launch ⟨.configureCovering o, x, a⟩).1 = .ended s.hub.now (.error (.link e)) := by
  obtain ⟨h', hstart, hnow⟩ := start_configure_of_missing hc ho s.verbose
  change (s.settle _ s.hub.now (Activity.start a s.hub (Covering.configure o s.verbose))).1 = _
  rw [hstart, ← hnow]
  rfl

theorem Reachable.ended_of_missing (hs : s.Reachable) {i : Nat} {t : Task} {a : Address}
    {e : LinkError} {o : Covering.Options} {x : String}
    (ho : (Value.dict o.announcement).isShowable = true)
    (hlets : s.LetsIn i t ⟨.configureCovering o, x, a⟩)
    (hc : (s.atWake t).hub.cluster a .windowCovering = .error e) :
    ∃ t', (s.advance i).tasks[i]? = some t' ∧
      t'.stage = .ended (s.atWake t).hub.now (.error (.link e)) := by
  rcases hs.advance_waiting hlets.task hlets.waiting with
    ⟨j, s', hlets', hhub, -, -, hadvance⟩ | ⟨hno, -⟩
  · obtain ⟨-, rfl⟩ := hlets.unique hlets'
    have hc' : s'.hub.cluster a .windowCovering = .error e := by
      rw [hhub, cluster_write]
      exact hc
    rw [hadvance]
    refine ⟨_, List.getElem?_set_self (List.getElem?_eq_some_iff.mp hlets.task).1, ?_⟩
    rw [launch_of_missing hc' ho, hhub]
    rfl
  · exact absurd hlets (hno _)

/-- A calibration of a device that has no window covering begins and ends at the instant at which it is
called, and tells that it has failed. -/
theorem calibration_events_missing :
    let s := bareSession sampleAddress
    let calls := [Operation.calibration.call sampleText]
    let turns := [Turn.wake 0]
    s.Reachable ∧ s.Idle ∧ ¬ (s.opened calls).Cancelled turns 0 ∧
      (∃ j, (s.opened calls).Admitted turns 0 j 0) ∧
      ∃ e, ofTask 0 (gained events (s.opened calls) turns) = [⟨0, Event.failed, [
        ("device_ieee", .str sampleText), (Covering.calibrateKey, .bool false),
        ("error", .str (Fault.link e).message), ("error_type", .str "TransportError")]⟩] := by
  intro s calls turns
  have hsetUp : Session.setUp .null true (bareHub sampleAddress) = .ok _ := rfl
  have idle : s.Idle := List.forall_mem_nil _
  have hs : s.Reachable := .call (.setUp hsetUp) idle []
  let t := Task.ofCall 0 (Operation.calibration.call sampleText)
  let s₀ := s.opened calls
  have hs₀ : s₀.Reachable := .call hs idle calls
  have hd : (s₀.atWake t).hub.device? sampleAddress =
      some { slowDevice sampleAddress with clusters := [] } := by
    simp [s₀, s, opened, fresh, atWake, bareSession, Hub.device?, bareHub, slowDevice]
  obtain ⟨e, hcluster⟩ : ∃ e, (s₀.atWake t).hub.cluster sampleAddress .windowCovering = .error e := by
    rw [Hub.cluster, hd]
    exact ⟨_, rfl⟩
  have hjob : (s₀.jobOf t).outcome = .ok ⟨Operation.calibration.purpose, sampleText, sampleAddress⟩ :=
    Operation.calibration.job_call spells_sample hd rfl
  have hfree (k : LockKey) : ¬ s₀.Held k := fun h => by cases h
  have hlets : s₀.LetsIn 0 t _ :=
    ⟨rfl, ⟨0, rfl⟩, hjob, fun k _ => ⟨hfree k, proper_of_data rfl k⟩⟩
  have hin : s₀.Admitted turns 0 _ 0 := ⟨[], [], rfl, t, hlets, rfl⟩
  have hnot : ¬ s₀.Cancelled turns 0 := by
    rintro ⟨before, later, hturns, t', ht', hc⟩
    cases before with
    | nil =>
      have htask : t = t' := Option.some.inj ht'
      subst htask
      cases hc
    | cons turn before => simp [turns] at hturns
  refine ⟨hs, idle, hnot, ⟨_, hin⟩, e, ?_⟩
  obtain ⟨u, hu, hend⟩ := hs₀.ended_of_missing rfl hlets hcluster
  obtain ⟨t', ht', -, -, htold⟩ := (hs.calibration_events idle calls turns).2 0 _ rfl
  change (s₀.after turns).tasks[0]? = some t' at ht'
  rw [after_wake, hu] at ht'
  cases ht'
  obtain ⟨x, calibrate, ⟨given, hgiven, haddress, hflag⟩, -, -, -, hfailed⟩ :=
    htold rfl hnot _ _ _ _ hin hend
  have hsame : given = Operation.calibration.given sampleText :=
    Except.ok.inj (hgiven.symm.trans (Operation.calibration.check_request sampleText))
  subst hsame
  rw [Operation.calibration.get_given] at haddress
  have hx : x = sampleText := Except.ok.inj (haddress.symm.trans spells_sample.normal)
  subst hx
  subst hflag
  exact hfailed _ rfl

end Session

end Commissioning

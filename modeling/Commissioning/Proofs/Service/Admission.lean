import Commissioning.Proofs.Service.Locked

/-!
What becomes of a call that needs a lock. It starts when it is woken, and then there are three ways:
the lock is held, or it is free, or the host keeps something else in its place.

    call ── form, device ──▶ job ──┬─ held ────▶ ended: busy
                                   ├─ free ────▶ lock held, running
                                   └─ no lock ─▶ ended: mismatch
-/
namespace Commissioning.Session
variable {s : Session} {i : Nat} {t : Task} {j : Job} {o : Operation} {k : LockKey}

/-- The job of a task that is about to start. -/
def jobOf (s : Session) (t : Task) : Logged Job :=
  t.call.service.job t.call.data (s.atWake t).hub s.hasGateway

/-- Whether the host keeps nothing else in place of the lock of a key. -/
def Proper (s : Session) (k : LockKey) : Prop := (LockTables.ofData s.data).Proper k

/-- The task at a position starts as a job that needs the lock of a key. -/
structure Starts (s : Session) (i : Nat) (t : Task) (j : Job) (o : Operation) (k : LockKey) :
    Prop where
  task : s.tasks[i]? = some t
  waiting : ∃ start, t.stage = .waiting start
  job : (s.jobOf t).outcome = .ok j
  lock : j.lock? = some (o, k)

/-- A task ends with a fault at the instant at which it wakes, and nothing happens but that. -/
structure EndsWith (s : Session) (i : Nat) (t : Task) (e : Fault) : Prop where
  tasks : (s.advance i).tasks = s.tasks.set i { t with stage := .ended (s.atWake t).hub.now (.error e) }
  calls : (s.advance i).hub.calls = s.hub.calls
  events : (s.advance i).events = s.events

theorem start_of_error {e : Fault} (h : (s.jobOf t).outcome = .error e) :
    (s.atWake t).start t.call = ((s.atWake t).write (s.jobOf t).log).refuse e := by
  have hjob : (t.call.service.job t.call.data (s.atWake t).hub (s.atWake t).hasGateway).outcome =
    .error e := h
  simp only [Session.start]
  rw [hjob]
  rfl

theorem start_of_job (h : (s.jobOf t).outcome = .ok j) :
    (s.atWake t).start t.call = ((s.atWake t).write (s.jobOf t).log).enter j := by
  have hjob : (t.call.service.job t.call.data (s.atWake t).hub (s.atWake t).hasGateway).outcome =
    .ok j := h
  simp only [Session.start]
  rw [hjob]
  rfl

theorem move_of_starts (h : s.Starts i t j o k) :
    (s.atWake t).move t = ((s.atWake t).write (s.jobOf t).log).enter j := by
  obtain ⟨start, hstart⟩ := h.waiting
  simp only [move, hstart]
  exact start_of_job h.job

theorem enter_of_held (hlock : j.lock? = some (o, k)) (hk : s.Held k) :
    ∃ tables, s.enter j = refuse { s with tables } (.access (.busy o j.address)) := by
  have htable := (LockTables.proper_of_lock? hk fun _ => nofun).table
  obtain ⟨tables, hr⟩ := LockTables.request_eq_ok_iff.mpr htable
  have hheld : tables.lock? k = some .held := (held_request hr k).mpr hk
  refine ⟨tables, ?_⟩
  simp only [enter, hlock, hr, hheld]

theorem enter_of_free (hlock : j.lock? = some (o, k)) (hk : ¬ s.Held k) (hp : s.tables.Proper k) :
    ∃ tables, tables.lock? k = some .free ∧
      s.enter j = (setLock { s with tables } k .held).launch j := by
  obtain ⟨tables, hr⟩ := LockTables.request_eq_ok_iff.mpr hp.table
  have hproper := (((LockTables.kept_request hr).proper k).mpr hp).lock
  have hheld : tables.lock? k ≠ some .held := mt (held_request hr k).mp hk
  have hthere : tables.lock? k = some ((s.tables.lock? k).getD .free) := by
    rw [LockTables.lock?_request hr, if_pos rfl]
  have hfree : tables.lock? k = some .free := by
    cases hl : (s.tables.lock? k).getD .free with
    | free => rw [hthere, hl]
    | held => exact absurd (hl ▸ hthere) hheld
    | foreign v => exact absurd (hl ▸ hthere) (hproper v)
  refine ⟨tables, hfree, ?_⟩
  simp only [enter, hlock, hr, hfree]

theorem enter_of_improper (hlock : j.lock? = some (o, k)) (hp : ¬ s.tables.Proper k) :
    ∃ tables, s.enter j = refuse { s with tables } (.mismatch (s.tables.obstacle k)) := by
  cases hr : s.tables.request k with
  | error e =>
    refine ⟨s.tables, ?_⟩
    rw [← LockTables.request_eq_error hr]
    simp only [enter, hlock, hr]
  | ok tables =>
    have htable := LockTables.request_eq_ok_iff.mp ⟨tables, hr⟩
    have hkept := LockTables.kept_request hr
    have htable' := mt (hkept.table _).mp htable
    obtain ⟨v, hv⟩ : ∃ v, tables.lock? k = some (.foreign v) :=
      Classical.byContradiction fun hnone =>
        hp ((hkept.proper k).mp ⟨htable', not_exists.mp hnone⟩)
    refine ⟨tables, ?_⟩
    rw [← hkept.obstacle k, LockTables.obstacle, hv]
    simp only [enter, hlock, hr, hv]

theorem endsWith_of_move {e : Fault} (ht : s.tasks[i]? = some t)
    (h : ∃ s' : Session, (s.atWake t).move t = s'.refuse e ∧ s'.hub.now = (s.atWake t).hub.now ∧
      s'.hub.calls = s.hub.calls ∧ s'.events = s.events) : s.EndsWith i t e := by
  obtain ⟨s', hmove, hnow, hcalls, hevents⟩ := h
  constructor
  · rw [advance_eq ht, hmove, ← hnow]
    rfl
  · rw [advance_eq ht, hmove, ← hcalls]
    rfl
  · rw [advance_eq ht, hmove, ← hevents]
    rfl

/-- A call that does not become a job ends at once. -/
theorem endsWith_of_error {e : Fault} (ht : s.tasks[i]? = some t)
    (hw : ∃ start, t.stage = .waiting start) (hjob : (s.jobOf t).outcome = .error e) :
    s.EndsWith i t e := by
  obtain ⟨start, hstart⟩ := hw
  have hmove : (s.atWake t).move t = (s.atWake t).start t.call := by simp only [move, hstart]
  exact endsWith_of_move ht ⟨_, hmove.trans (start_of_error hjob), rfl, rfl, rfl⟩

theorem Locked.refused (hl : s.Locked) (h : s.Starts i t j o k) (hk : s.HasHolder k) :
    s.EndsWith i t (.access (.busy o j.address)) := by
  have hheld : ((s.atWake t).write (s.jobOf t).log).Held k := (hl.held k).mpr hk
  obtain ⟨tables, he⟩ := enter_of_held h.lock hheld
  exact endsWith_of_move h.task ⟨_, (move_of_starts h).trans he, rfl, rfl, rfl⟩

theorem Reachable.admitted (hs : s.Reachable) (h : s.Starts i t j o k) (hk : ¬ s.HasHolder k)
    (hp : s.Proper k) : ∃ s' : Session, s'.hub = ((s.atWake t).write (s.jobOf t).log).hub ∧
      s'.Held k ∧ s.advance i = { (s'.launch j).2 with
        tasks := s.tasks.set i { t with stage := (s'.launch j).1 } } := by
  have hfree : ¬ ((s.atWake t).write (s.jobOf t).log).Held k := mt (hs.locked.held k).mp hk
  have hproper : ((s.atWake t).write (s.jobOf t).log).tables.Proper k := (hs.proper k).mpr hp
  obtain ⟨tables, hlock, he⟩ := enter_of_free h.lock hfree hproper
  refine ⟨setLock { (s.atWake t).write (s.jobOf t).log with tables } k .held, rfl, ?_, ?_⟩
  · exact (held_setLock_held (by simp [hlock]) k).mpr (.inl rfl)
  · rw [advance_eq h.task, move_of_starts h, he]

theorem Reachable.improper (hs : s.Reachable) (h : s.Starts i t j o k) (hp : ¬ s.Proper k) :
    ∃ e, s.EndsWith i t (.mismatch e) := by
  have hproper : ¬ ((s.atWake t).write (s.jobOf t).log).tables.Proper k := mt (hs.proper k).mp hp
  obtain ⟨tables, he⟩ := enter_of_improper h.lock hproper
  exact ⟨_, endsWith_of_move h.task ⟨_, (move_of_starts h).trans he, rfl, rfl, rfl⟩⟩

end Commissioning.Session

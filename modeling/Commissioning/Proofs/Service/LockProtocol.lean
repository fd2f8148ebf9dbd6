import Commissioning.Proofs.Service.Opening

/-!
The protocol of locks. A call whose lock is held is refused at once, and only because of a job that
runs right then; none waits for a lock, and every end of a job gives its lock back.

    waiting ── lock free ──▶ running, lock held ── returns, raises, cancelled ──▶ ended, lock free
       └────── lock held ──▶ ended at once, nothing sent
-/
namespace Commissioning.Session
variable {s : Session} {i : Nat} {t : Task} {k : LockKey}

/-- What the locks are for. -/
structure LockProtocol (s : Session) : Prop where
  /-- At most one task holds the lock of a key. -/
  exclusive : ∀ (i i' : Nat) (t t' : Task) (k : LockKey), s.tasks[i]? = some t →
    s.tasks[i']? = some t' → t.stage.Holds k → t'.stage.Holds k → i = i'
  /-- A lock is held while a task holds it, and not longer. -/
  held : ∀ k, s.Held k ↔ s.HasHolder k
  /-- A call that finds its lock held fails at that instant. -/
  refused : ∀ i t j o k, s.Starts i t j o k → s.HasHolder k →
    s.EndsWith i t (.access (.busy o j.address)) ∧
    (Fault.access (.busy o j.address)).category = .request
  /-- A call whose lock no other call holds runs, whatever else runs. -/
  admitted : ∀ i t j o k, s.Starts i t j o k → ¬ s.HasHolder k → s.Proper k →
    ∃ s' : Session, s'.hub = ((s.atWake t).write (s.jobOf t).log).hub ∧ s'.Held k ∧
      s.advance i = { (s'.launch j).2 with
        tasks := s.tasks.set i { t with stage := (s'.launch j).1 } }
  /-- What the host keeps in place of a lock is the only other reason not to run. -/
  improper : ∀ i t j o k, s.Starts i t j o k → ¬ s.Proper k →
    ∃ e, s.EndsWith i t (.mismatch e)
  /-- No call waits for a lock: a task that has started waits for time or the device, or has ended. -/
  started : ∀ i t start, s.tasks[i]? = some t → t.stage = .waiting start →
    ∃ t', (s.advance i).tasks[i]? = some t' ∧ t'.stage.IsStarted
  /-- A task that is cancelled where it waits has ended. -/
  cancelled : ∀ i t, s.tasks[i]? = some t → t.isCancelled → s.EndsWith i t .cancelled
  /-- Once a task that held a lock has ended, in whatever way, the lock is free. -/
  released : ∀ i t t' k, s.tasks[i]? = some t → t.stage.Holds k →
    (s.advance i).tasks[i]? = some t' → t'.result?.isSome → ¬ (s.advance i).Held k

/-! ### What becomes of a lock -/

theorem started_of_waiting {start : Nat} (ht : s.tasks[i]? = some t)
    (hw : t.stage = .waiting start) :
    ∃ t', (s.advance i).tasks[i]? = some t' ∧ t'.stage.IsStarted := by
  refine ⟨_, getElem?_advance ht, ?_⟩
  simp only [move, hw]
  exact start_isStarted _ _

theorem cancel_ends (ht : s.tasks[i]? = some t) (hc : t.isCancelled) :
    s.EndsWith i t .cancelled := by
  cases hst : t.stage with
  | waiting start => simp [Task.isCancelled, hst] at hc
  | ended finish outcome => simp [Task.isCancelled, hst] at hc
  | running j began activity =>
    obtain ⟨hhub, hevents⟩ := release_keeps (s.atWake t) j
    refine endsWith_of_move ht ⟨_, move_of_cancelled hst hc, ?_, ?_, hevents⟩
    · rw [hhub]
    · rw [hhub]
      rfl

theorem Locked.released {t' : Task} (hl : s.Locked) (ht : s.tasks[i]? = some t)
    (hk : t.stage.Holds k) (ht' : (s.advance i).tasks[i]? = some t') (hend : t'.result?.isSome) :
    ¬ (s.advance i).Held k := by
  intro hheld
  obtain ⟨i', u, hu, hholds⟩ := ((hl.advance i).held k).mp hheld
  have hi : i' ≠ i := by
    rintro rfl
    rw [ht'] at hu
    cases hu
    exact not_holds_of_result hend hholds
  rw [advance_eq ht] at hu
  rw [List.getElem?_set_ne (Ne.symm hi)] at hu
  exact hi (hl.single i' i u t k hu ht hholds hk)

/-- In every session, whatever the calls are and in whatever order they move on, the locks keep
calls on one address apart and keep nothing else apart. -/
theorem Reachable.lockProtocol (h : s.Reachable) : s.LockProtocol where
  exclusive := h.locked.single
  held := h.locked.held
  refused _ _ _ _ _ hs hk := ⟨h.locked.refused hs hk, rfl⟩
  admitted _ _ _ _ _ hs hk hp := h.admitted hs hk hp
  improper _ _ _ _ _ hs hp := h.improper hs hp
  started _ _ _ ht hw := started_of_waiting ht hw
  cancelled _ _ ht hc := cancel_ends ht hc
  released _ _ _ _ ht hk ht' hend := h.locked.released ht hk ht' hend

/-- Of two calls for a calibration of one device the first one runs and the second one starts. -/
theorem lockProtocol_opening :
    let s := (opening .calibration sampleAddress [sampleText, sampleText]).advance 0
    let k : LockKey := ⟨Operation.calibration.name, sampleText⟩
    s.Reachable ∧ s.HasHolder k ∧ (∃ t j, s.Starts 1 t j .calibration k) ∧ s.LockProtocol := by
  intro s k
  have hs : s.Reachable := (opening_reachable _ _ _).advance 0
  obtain ⟨st, htasks, hrun, -⟩ := opening_advance .calibration spells_sample [sampleText]
  have ht : s.tasks[0]? = some { Task.ofCall 0 (Operation.calibration.call sampleText) with
    stage := st } := by rw [htasks]; rfl
  have hk := (hs.holds ht (Operation.calibration.call_names _) spells_sample hrun).mpr rfl
  exact ⟨hs, ⟨0, _, ht, hk⟩, ⟨_, _, opening_starts .calibration spells_sample spells_sample []⟩,
    hs.lockProtocol⟩

end Commissioning.Session

import Commissioning.Service.Session
import Commissioning.Proofs.Logged

/-!
The sessions that there can be. Tasks move on in any order and any number of times, and between
batches of calls devices may change in any way. Whatever runs calls side by side to their ends stays
among them, and leaves no task behind.

    setUp ──▶ idle ── calls ──▶ on their way ── one task moves on ──┐
               ▲                    ▲  └──── all ended ────┐        │
               └────────────────────┼──────────────────────┘        │
                                    └───────────────────────────────┘
-/
namespace Commissioning

/-- A stage that is no longer waiting: ended, or running up to a wait for the device or for time. -/
def Stage.IsStarted (st : Stage) : Prop :=
  match st with
  | .waiting _ => False
  | .running _ _ activity => activity.wake?.isSome
  | .ended .. => True

namespace Session
variable {s : Session} {t : Task}

/-- Whether all tasks have ended. -/
def Idle (s : Session) : Prop := ∀ t ∈ s.tasks, t.result?.isSome

/-- The sessions that there can be. -/
inductive Reachable : Session → Prop where
  | setUp {data : Value} {hasGateway : Bool} {hub : Hub} {s : Session}
    (h : Session.setUp data hasGateway hub = .ok s) : Reachable s
  | call {s : Session} (h : Reachable s) (idle : s.Idle) (calls : List Call) :
    Reachable { s.fresh with tasks := calls.map (Task.ofCall s.hub.now) }
  | arrange {s : Session} (h : Reachable s) (a : Address) (f : Device → Device) :
    Reachable (s.arrange a f)
  | advance {s : Session} (h : Reachable s) (i : Nat) : Reachable (s.advance i)

/-- A session that has been set up has no tasks, and the locks that the host's data stand for. -/
theorem setUp_ok {data : Value} {hasGateway : Bool} {hub : Hub}
    (h : Session.setUp data hasGateway hub = .ok s) :
    s.tasks = [] ∧ s.tables = LockTables.ofData s.data := by
  obtain ⟨own, -, h⟩ := bind_eq_ok.mp h
  obtain ⟨verbose, -, h⟩ := bind_eq_ok.mp h
  cases h
  exact ⟨rfl, rfl⟩

/-- What moving a task on changes. -/
theorem advance_eq {i : Nat} (ht : s.tasks[i]? = some t) :
    s.advance i = { ((s.atWake t).move t).2 with
      tasks := s.tasks.set i { t with stage := ((s.atWake t).move t).1 } } := by
  simp [advance, ht]

theorem getElem?_advance {i : Nat} (ht : s.tasks[i]? = some t) :
    (s.advance i).tasks[i]? = some { t with stage := ((s.atWake t).move t).1 } := by
  rw [advance_eq ht]
  exact List.getElem?_set_self (List.getElem?_eq_some_iff.mp ht).1

theorem getElem?_advance_of_ne {i k : Nat} (hk : k ≠ i) :
    (s.advance k).tasks[i]? = s.tasks[i]? := by
  cases ht : s.tasks[k]? with
  | none => rw [advance, ht]
  | some t => rw [advance_eq ht, List.getElem?_set_ne hk]

/-- A task that has moved on, among the others. -/
theorem getElem?_set_cases {ts : List Task} {i i' : Nat} {t u t' : Task} (ht : ts[i]? = some t)
    (h : (ts.set i u)[i']? = some t') : i' = i ∧ t' = u ∨ i' ≠ i ∧ ts[i']? = some t' := by
  by_cases hi : i' = i
  · subst hi
    rw [List.getElem?_set_self (List.getElem?_eq_some_iff.mp ht).1] at h
    exact .inl ⟨rfl, (Option.some.inj h).symm⟩
  · rw [List.getElem?_set_ne (Ne.symm hi)] at h
    exact .inr ⟨hi, h⟩

/-! ### What a session never changes -/

theorem release_keeps (s : Session) (j : Job) :
    (s.release j).hub = s.hub ∧ (s.release j).events = s.events := by
  unfold release
  split <;> exact ⟨rfl, rfl⟩

/-- A task that is cancelled where it waits ends at once when it is woken. -/
theorem move_of_cancelled {j : Job} {began : Nat} {activity : Activity Entries}
    (hst : t.stage = .running j began activity) (hc : t.isCancelled) :
    s.move t = (s.release j).refuse .cancelled := by
  simp only [move, hst, hc, if_true]

/-- What the host has told at the beginning. -/
def host (s : Session) : Bool × Entries := (s.hasGateway, s.data)

theorem release_host (s : Session) (j : Job) : (s.release j).host = s.host := by
  unfold release
  split <;> rfl

theorem settle_host (s : Session) (j : Job) (began : Nat) (r : Activity Entries × Hub) :
    (s.settle j began r).2.host = s.host := by
  unfold settle
  split
  · exact release_host _ j
  · rfl

theorem enter_host (s : Session) (j : Job) : (s.enter j).2.host = s.host := by
  unfold enter
  split
  · exact settle_host _ _ _ _
  · split
    · rfl
    · dsimp only
      split
      · rfl
      · rfl
      · exact settle_host _ _ _ _

theorem move_host (s : Session) (t : Task) : (s.move t).2.host = s.host := by
  unfold move
  split
  · unfold start
    dsimp only
    split
    · rfl
    · exact enter_host _ _
  · split
    · exact release_host s _
    · exact settle_host _ _ _ _
  · rfl

theorem advance_host (s : Session) (i : Nat) : (s.advance i).host = s.host := by
  cases ht : s.tasks[i]? with
  | none => simp only [advance, ht]
  | some t =>
    rw [advance_eq ht]
    exact move_host (s.atWake t) t

/-! ### What holds of every task -/

/-- What holds of a call that waits, and is kept by every move of a task, holds of every task. -/
theorem Reachable.invariant {P : Bool → Call → Stage → Prop} (h : s.Reachable)
    (hwait : ∀ g c w, P g c (.waiting w))
    (hmove : ∀ (s : Session) (t : Task), P s.hasGateway t.call t.stage →
      P s.hasGateway t.call (s.move t).1) :
    ∀ t ∈ s.tasks, P s.hasGateway t.call t.stage := by
  induction h with
  | setUp hs => simp [setUp_ok hs]
  | call _ _ calls _ =>
    intro t ht
    obtain ⟨c, -, rfl⟩ := List.mem_map.mp ht
    exact hwait _ _ _
  | arrange _ a f ih => exact ih
  | @advance s _ i ih =>
    cases ht : s.tasks[i]? with
    | none =>
      simp only [Session.advance, ht]
      exact ih
    | some t =>
      intro t' ht'
      have hhost : (s.advance i).hasGateway = s.hasGateway := congrArg Prod.fst (s.advance_host i)
      rw [hhost]
      rw [advance_eq ht] at ht'
      obtain ⟨i', hi'⟩ := List.getElem?_of_mem ht'
      rcases getElem?_set_cases ht hi' with ⟨-, rfl⟩ | ⟨-, hold⟩
      · exact hmove (s.atWake t) t (ih t (List.mem_of_getElem? ht))
      · exact ih t' (List.mem_of_getElem? hold)

/-! ### No task gets stuck -/

theorem settle_isStarted (s : Session) (j : Job) (began : Nat) (r : Activity Entries × Hub) :
    (s.settle j began r).1.IsStarted := by
  obtain ⟨activity, hub⟩ := r
  cases activity <;> trivial

theorem enter_isStarted (s : Session) (j : Job) : (s.enter j).1.IsStarted := by
  unfold enter
  split
  · exact settle_isStarted _ _ _ _
  · split
    · trivial
    · dsimp only
      split
      · trivial
      · trivial
      · exact settle_isStarted _ _ _ _

theorem start_isStarted (s : Session) (c : Call) : (s.start c).1.IsStarted := by
  unfold start
  dsimp only
  split
  · trivial
  · exact enter_isStarted _ _

/-- A task waits for its start, or waits for something that comes, or has ended. -/
theorem Reachable.isStarted (h : s.Reachable) :
    ∀ t ∈ s.tasks, (∃ w, t.stage = .waiting w) ∨ t.stage.IsStarted := by
  refine h.invariant (P := fun _ _ st => (∃ w, st = .waiting w) ∨ st.IsStarted)
    (fun _ _ w => .inl ⟨w, rfl⟩) ?_
  intro s t ht
  refine .inr ?_
  unfold move
  split
  · exact start_isStarted s t.call
  · split
    · trivial
    · exact settle_isStarted _ _ _ _
  · next hst =>
    rw [hst]
    trivial

theorem wake?_eq_none_of_earliest? {ts : List Task} (h : Task.earliest? ts = none) :
    ∀ t ∈ ts, t.wake? = none := by
  induction ts with
  | nil => simp
  | cons t ts ih =>
    simp only [Task.earliest?] at h
    split at h
    · next hw =>
      rintro t' (_ | ⟨_, ht'⟩)
      · exact hw
      · exact ih (Option.map_eq_none_iff.mp h) t' ht'
    · cases h
    · split at h <;> cases h

theorem result?_isSome_of_wake? (hstage : (∃ w, t.stage = .waiting w) ∨ t.stage.IsStarted)
    (hwake : t.wake? = none) : t.result?.isSome := by
  have hdue : t.due? = none := by
    unfold Task.wake? Task.isCancelled at hwake
    split at hwake
    · split at hwake
      · simp_all
      · exact hwake
    · exact hwake
  rcases hstage with ⟨w, hw⟩ | hst
  · simp [Task.due?, hw] at hdue
  · cases hstage : t.stage with
    | waiting w => simp [hstage, Stage.IsStarted] at hst
    | running j began activity =>
      simp only [hstage, Stage.IsStarted] at hst
      simp [Task.due?, hstage] at hdue
      simp [hdue] at hst
    | ended finish outcome => simp [Task.result?, hstage]

/-! ### Whole runs -/

/-- Tasks that are woken one after the other lead to a session in which all have ended. -/
theorem Reachable.run (h : s.Reachable) : s.run.Reachable ∧ s.run.Idle := by
  fun_induction Session.run s with
  | case1 s hnone =>
    refine ⟨h, fun t ht => ?_⟩
    exact result?_isSome_of_wake? (h.isStarted t ht) (wake?_eq_none_of_earliest? hnone t ht)
  | case2 s i w _ ih => exact ih (.advance h i)

/-- Calls that run side by side lead from an idle session to an idle session. -/
theorem Reachable.perform (h : s.Reachable) (idle : s.Idle) (calls : List Call) :
    (s.perform calls).2.Reachable ∧ (s.perform calls).2.Idle :=
  (Reachable.call h idle calls).run

end Session

end Commissioning

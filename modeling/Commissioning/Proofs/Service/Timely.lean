import Commissioning.Proofs.Service.Beside
import Commissioning.Proofs.Service.Turns

/-!
Turns in time. The task that wakes first is woken first; of several that wake at one instant any one
may be. Then no task is woken too late, and the clock shows the time at which the task wakes.

    wake at 3, 5, 8 ── first ──▶ clock 3, wake at 5, 7, 8 ── first ──▶ clock 5, …
-/
namespace Commissioning

namespace Activity
variable {α : Type}

theorem le_wake_start (p : Procedure α) (a : Address) (h : Hub) {w : Nat}
    (hw : (start a h p).1.wake? = some w) : h.now ≤ w := by
  induction p generalizing h with
  | done x => cases hw
  | fail e => cases hw
  | ask e next ih =>
    cases e with
    | exchange q =>
      have hbegin := (h.touches_begin (Option.mem_some_self a) q).now
      simp only [start] at hw
      split at hw
      · next outcome g hb =>
        rw [hb] at hbegin
        exact hbegin ▸ ih outcome g hw
      · next x g hb =>
        rw [hb] at hbegin
        split at hw
        · have hfinish := (g.touches_finish (Option.mem_some_self a) x).now
          exact hbegin ▸ hfinish ▸ ih _ _ hw
        · cases hw
          exact hbegin ▸ Nat.le_add_right _ _
    | pause ms =>
      cases hw
      exact Nat.le_add_right _ _
    | clock => exact ih h.now h hw
    | log lines => exact ih () (h.write lines) hw

/-- Whatever goes on at a time does not have to go on before that. -/
theorem le_wake_resume {x : Activity α} (a : Address) (h : Hub) {w : Nat}
    (hw : (x.resume a h).1.wake? = some w) : h.now ≤ w := by
  cases x with
  | ended outcome => cases hw
  | pausing wake rest => exact le_wake_start rest a h hw
  | calling wake x next =>
    have hfinish := (h.touches_finish (Option.mem_some_self a) x).now
    exact hfinish ▸ le_wake_start _ a _ hw

end Activity

namespace Task
variable {t : Task} {now w : Nat}

/-- At a time nothing is overdue: neither the next wake of a task nor its cancellation. -/
def InTime (now : Nat) (t : Task) : Prop :=
  match t.stage with
  | .waiting start => now ≤ start ∧ ∀ c, t.cancelAt = some c → start ≤ c
  | .running _ _ x => ∀ w, x.wake? = some w → now ≤ w ∧ ∀ c, t.cancelAt = some c → now ≤ c
  | .ended .. => True

/-- When a running task that waits is woken: at its time, or when it is cancelled before that. -/
theorem wake?_of_running {j : Job} {began d : Nat} {x : Activity Entries}
    (hst : t.stage = .running j began x) (hd : x.wake? = some d) :
    (t.isCancelled = false ∧ t.wake? = some d ∧ ∀ c, t.cancelAt = some c → d < c) ∨
      t.isCancelled ∧ ∃ c, t.wake? = some c ∧ t.cancelAt = some c ∧ c ≤ d := by
  have hdue : t.due? = some d := by rw [due?, hst]; exact hd
  cases hc : t.cancelAt with
  | none =>
    have hnot : t.isCancelled = false := by rw [isCancelled, hst, hc]
    exact .inl ⟨hnot, by rw [wake?, hnot]; exact hdue, fun c hc => by cases hc⟩
  | some c =>
    have hiff : t.isCancelled = decide (c ≤ d) := by rw [isCancelled, hst, hc, hdue]
    by_cases hle : c ≤ d
    · have hyes : t.isCancelled = true := hiff.trans (decide_eq_true hle)
      exact .inr ⟨hyes, c, by rw [wake?, if_pos hyes, hc], rfl, hle⟩
    · have hnot : t.isCancelled = false := hiff.trans (decide_eq_false hle)
      refine .inl ⟨hnot, by rw [wake?, hnot]; exact hdue, ?_⟩
      rintro _ ⟨⟩
      exact Nat.lt_of_not_le hle

theorem wake?_of_waiting {start : Nat} (hst : t.stage = .waiting start) : t.wake? = some start := by
  simp [wake?, isCancelled, due?, hst]

theorem InTime.le_wake (h : t.InTime now) (hw : t.wake? = some w) : now ≤ w := by
  unfold InTime at h
  cases hst : t.stage with
  | waiting start =>
    rw [hst] at h
    cases (wake?_of_waiting hst).symm.trans hw
    exact h.1
  | ended finish outcome => simp [wake?, isCancelled, due?, hst] at hw
  | running j began x =>
    rw [hst] at h
    cases hd : x.wake? with
    | none => simp [wake?, isCancelled, due?, hst, hd] at hw
    | some d =>
      obtain ⟨hnow, hcancel⟩ := h d hd
      rcases wake?_of_running hst hd with ⟨-, hwake, -⟩ | ⟨-, c, hwake, hc, -⟩
      · cases hwake.symm.trans hw
        exact hnow
      · cases hwake.symm.trans hw
        exact hcancel _ hc

/-- Until a task is woken nothing of it becomes overdue. -/
theorem InTime.later (h : t.InTime now) {now' : Nat} (hw : ∀ w, t.wake? = some w → now' ≤ w) :
    t.InTime now' := by
  unfold InTime at h ⊢
  cases hst : t.stage with
  | waiting start =>
    rw [hst] at h
    exact ⟨hw start (wake?_of_waiting hst), h.2⟩
  | ended finish outcome => trivial
  | running j began x =>
    intro d hd
    rcases wake?_of_running hst hd with ⟨-, hwake, hlt⟩ | ⟨-, c, hwake, hc, hle⟩
    · exact ⟨hw d hwake, fun c hc => (hw d hwake).trans (hlt c hc).le⟩
    · refine ⟨(hw c hwake).trans hle, fun c' hc' => ?_⟩
      cases hc.symm.trans hc'
      exact hw c hwake

end Task

namespace Session
variable {s : Session} {i : Nat} {t : Task} {j : Job} {w : Nat}

/-- A stage that has been reached at a time is over, or goes on at that time or later. -/
def GoesOn (now : Nat) (st : Stage) : Prop :=
  (∃ finish outcome, st = .ended finish outcome) ∨
    ∃ j began x, st = .running j began x ∧ ∀ w, x.wake? = some w → now ≤ w

theorem settle_goesOn {began now : Nat} {r : Activity Entries × Hub}
    (hr : ∀ w, r.1.wake? = some w → now ≤ w) : GoesOn now (s.settle j began r).1 := by
  obtain ⟨x, hub⟩ := r
  cases x with
  | ended outcome => exact .inl ⟨_, _, rfl⟩
  | pausing wake rest => exact .inr ⟨j, began, _, rfl, hr⟩
  | calling wake x next => exact .inr ⟨j, began, _, rfl, hr⟩

theorem launch_goesOn (s : Session) (j : Job) : GoesOn s.hub.now (s.launch j).1 :=
  settle_goesOn fun _ hw => Activity.le_wake_start _ _ _ hw

theorem enter_goesOn (s : Session) (j : Job) : GoesOn s.hub.now (s.enter j).1 := by
  unfold enter
  split
  · exact s.launch_goesOn j
  · split
    · exact .inl ⟨_, _, rfl⟩
    · dsimp only
      split
      · exact .inl ⟨_, _, rfl⟩
      · exact .inl ⟨_, _, rfl⟩
      · exact launch_goesOn _ j

/-- A task that is woken in time is in time after that. -/
theorem move_inTime {now : Nat} (h : t.InTime now) (hw : t.wake? = some s.hub.now) :
    Task.InTime s.hub.now { t with stage := (s.move t).1 } := by
  have hgoes : ∀ st, GoesOn s.hub.now st →
      (∀ c, t.cancelAt = some c → s.hub.now ≤ c) → Task.InTime s.hub.now { t with stage := st } := by
    rintro _ (⟨finish, outcome, rfl⟩ | ⟨j, began, x, rfl, hx⟩) hc
    · trivial
    · exact fun w hw => ⟨hx w hw, hc⟩
  unfold move
  split
  · next start hst =>
    rw [Task.InTime, hst] at h
    cases (Task.wake?_of_waiting hst).symm.trans hw
    refine hgoes _ ?_ h.2
    unfold Session.start
    dsimp only
    split
    · exact .inl ⟨_, _, rfl⟩
    · exact enter_goesOn _ _
  · next j began x hst =>
    split
    · trivial
    · next hnot =>
      refine hgoes _ (settle_goesOn fun _ hw => Activity.le_wake_resume _ _ hw) fun c hc => ?_
      cases hd : x.wake? with
      | none => simp [Task.wake?, Task.isCancelled, Task.due?, hst, hd] at hw
      | some d =>
        rcases Task.wake?_of_running hst hd with ⟨-, hwake, hlt⟩ | ⟨hyes, -⟩
        · cases hwake.symm.trans hw
          exact (hlt c hc).le
        · exact absurd hyes hnot
  · next hst => simp [Task.wake?, Task.isCancelled, Task.due?, hst] at hw

/-! ### Sessions -/

/-- No task of a session is overdue. -/
def InTime (s : Session) : Prop := ∀ t ∈ s.tasks, t.InTime s.hub.now

/-- The task at a position is the first one to wake, or one of those that wake first. -/
structure First (s : Session) (i : Nat) (t : Task) (w : Nat) : Prop where
  task : s.tasks[i]? = some t
  wake : t.wake? = some w
  first : ∀ u ∈ s.tasks, ∀ v, u.wake? = some v → w ≤ v

/-- Turns in each of which a task is woken that wakes first. -/
inductive Timely : Session → List Turn → Prop where
  | nil (s : Session) : Timely s []
  | cons {s : Session} {i : Nat} {t : Task} {w : Nat} {turns : List Turn} (h : s.First i t w)
    (rest : Timely (s.advance i) turns) : Timely s (.wake i :: turns)

theorem now_atWake (h : s.hub.now ≤ w) (hw : t.wake? = some w) : (s.atWake t).hub.now = w := by
  change max s.hub.now (t.wake?.getD 0) = w
  rw [hw]
  exact max_eq_right h

theorem Reachable.move_touches (hs : s.Reachable) (ht : s.tasks[i]? = some t) :
    (s.atWake t).Touches t.call.address? ((s.atWake t).move t).2 :=
  Session.move_touches (hs.runsJobOf t (List.mem_of_getElem? ht))

theorem First.now (h : s.First i t w) (hs : s.Reachable) (hin : s.InTime) :
    (s.advance i).hub.now = w := by
  have hle : s.hub.now ≤ w := (hin t (List.mem_of_getElem? h.task)).le_wake h.wake
  rw [advance_eq h.task]
  exact (hs.move_touches h.task).hub.now.trans (now_atWake hle h.wake)

/-- Where the task that wakes first is woken, no task becomes overdue. -/
theorem InTime.advance (hin : s.InTime) (hs : s.Reachable) (h : s.First i t w) :
    (s.advance i).InTime := by
  intro u hu
  rw [h.now hs hin]
  obtain ⟨k, hk⟩ := List.getElem?_of_mem hu
  rw [advance_eq h.task] at hk
  rcases getElem?_set_cases h.task hk with ⟨-, rfl⟩ | ⟨-, hold⟩
  · have ht := hin t (List.mem_of_getElem? h.task)
    have hnow : (s.atWake t).hub.now = w := now_atWake (ht.le_wake h.wake) h.wake
    have hmoved := move_inTime (s := s.atWake t) ht (by rw [hnow]; exact h.wake)
    rw [hnow] at hmoved
    exact hmoved
  · have hmem := List.mem_of_getElem? hold
    exact (hin u hmem).later (h.first u hmem)

theorem inTime_opened (s : Session) (calls : List Call) : (s.opened calls).InTime := by
  intro t ht
  obtain ⟨c, -, rfl⟩ := List.mem_map.mp ht
  refine ⟨Nat.le_add_right _ _, fun m hm => ?_⟩
  obtain ⟨ms, -, rfl⟩ := Option.map_eq_some_iff.mp hm
  exact Nat.le_add_right _ _

theorem first_of_earliest? {ts : List Task} (h : Task.earliest? ts = some (i, w)) :
    ∀ u ∈ ts, ∀ v, u.wake? = some v → w ≤ v := by
  induction ts generalizing i w with
  | nil => cases h
  | cons t ts ih =>
    intro u hu v hv
    simp only [Task.earliest?] at h
    split at h
    · next hnone =>
      obtain ⟨⟨k, w'⟩, hk, he⟩ := Option.map_eq_some_iff.mp h
      cases he
      rcases List.mem_cons.mp hu with rfl | hu
      · rw [hnone] at hv
        cases hv
      · exact ih hk u hu v hv
    · next w' hsome hlater =>
      cases h
      rcases List.mem_cons.mp hu with rfl | hu
      · rw [hsome] at hv
        exact (Option.some.inj hv).le
      · have hno := wake?_eq_none_of_earliest? hlater u hu
        rw [hv] at hno
        cases hno
    · next w' k v' hsome hlater =>
      split at h
      · next hle =>
        cases h
        rcases List.mem_cons.mp hu with rfl | hu
        · rw [hsome] at hv
          exact (Option.some.inj hv).le
        · exact hle.trans (ih hlater u hu v hv)
      · next hle =>
        cases h
        rcases List.mem_cons.mp hu with rfl | hu
        · rw [hsome] at hv
          cases hv
          exact (Nat.lt_of_not_le hle).le
        · exact ih hlater u hu v hv

theorem first_of_earliest {i w : Nat} (h : Task.earliest? s.tasks = some (i, w)) :
    ∃ t, s.First i t w := by
  obtain ⟨t, ht, hw⟩ := Task.earliest?_wakes s.tasks i w h
  exact ⟨t, ht, hw, first_of_earliest? h⟩

/-- Running calls side by side takes turns in time. -/
theorem exists_timely_run (s : Session) : ∃ turns, s.Timely turns ∧ s.run = s.after turns := by
  fun_induction Session.run s with
  | case1 s _ => exact ⟨[], .nil s, rfl⟩
  | case2 s i w h ih =>
    obtain ⟨turns, htimely, hturns⟩ := ih
    obtain ⟨t, hfirst⟩ := first_of_earliest h
    exact ⟨.wake i :: turns, .cons hfirst htimely, hturns⟩

end Session

end Commissioning

import Commissioning.Service.Job

/-!
Tasks: calls of services on their way from their start to their end. A task waits for its start,
runs its job, and ends with an outcome; it may be cancelled while it runs.

    waiting ──▶ running ──▶ ended
       └───────────────────▶
-/
namespace Commissioning

/-- A call of a service. -/
structure Call where
  service : Service
  data : Value
  /-- How long after the others the call starts, in milliseconds. -/
  delay : Nat := 0
  /-- How long after its start the call is cancelled. -/
  cancelAfter : Option Nat := none

/-- Where a task stands. -/
inductive Stage where
  | waiting (start : Nat)
  | running (job : Job) (began : Nat) (activity : Activity Entries)
  | ended (finish : Nat) (outcome : Outcome Entries)

/-- A call on its way. -/
structure Task where
  call : Call
  cancelAt : Option Nat
  stage : Stage

namespace Stage

/-- `b` comes after `a`: a task starts, is refused, goes on or ends. -/
inductive Follows : Stage → Stage → Prop where
  | started (start : Nat) (job : Job) (began : Nat) (activity : Activity Entries) :
    Follows (.running job began activity) (.waiting start)
  | refused (start finish : Nat) (outcome : Outcome Entries) :
    Follows (.ended finish outcome) (.waiting start)
  | resumed (job : Job) (began : Nat) (later earlier : Activity Entries)
    (h : Activity.Follows later earlier) :
    Follows (.running job began later) (.running job began earlier)
  | finished (job : Job) (began : Nat) (activity : Activity Entries) (finish : Nat)
    (outcome : Outcome Entries) :
    Follows (.ended finish outcome) (.running job began activity)

theorem acc_ended (finish : Nat) (outcome : Outcome Entries) :
    Acc Follows (.ended finish outcome) :=
  ⟨_, fun _ h => nomatch h⟩

theorem acc_running (job : Job) (began : Nat) (activity : Activity Entries) :
    Acc Follows (.running job began activity) := by
  induction Activity.follows_wellFounded.apply activity with
  | intro activity _ ih =>
    refine ⟨_, fun s h => ?_⟩
    cases h with
    | resumed _ _ later _ h => exact ih later h
    | finished _ _ _ finish outcome => exact acc_ended finish outcome

/-- Every task comes to its end. -/
theorem follows_wellFounded : WellFounded Follows :=
  ⟨fun s => match s with
    | .ended finish outcome => acc_ended finish outcome
    | .running job began activity => acc_running job began activity
    | .waiting _ => ⟨_, fun _ h => match h with
      | .started _ job began activity => acc_running job began activity
      | .refused _ finish outcome => acc_ended finish outcome⟩⟩

end Stage

namespace Task

/-- When the activity of a task goes on, or when the task starts. -/
def due? (t : Task) : Option Nat :=
  match t.stage with
  | .waiting start => some start
  | .running _ _ activity => activity.wake?
  | .ended .. => none

/-- Whether a running task is cancelled before it goes on. -/
def isCancelled (t : Task) : Bool :=
  match t.stage, t.cancelAt, t.due? with
  | .running .., some c, some due => c ≤ due
  | _, _, _ => false

/-- When a task is looked at next. -/
def wake? (t : Task) : Option Nat := if t.isCancelled then t.cancelAt else t.due?

/-- The task of a call that is made now. -/
def ofCall (now : Nat) (c : Call) : Task where
  call := c
  cancelAt := c.cancelAfter.map fun ms => now + c.delay + ms
  stage := .waiting (now + c.delay)

/-- When a task ended, and how. -/
def result? (t : Task) : Option (Nat × Outcome Entries) :=
  match t.stage with
  | .ended finish outcome => some (finish, outcome)
  | _ => none

/-- One of several tasks has moved on. -/
inductive Follows : List Task → List Task → Prop where
  | head (t u : Task) (ts : List Task) (h : Stage.Follows u.stage t.stage) :
    Follows (u :: ts) (t :: ts)
  | tail (t : Task) (us ts : List Task) (h : Follows us ts) : Follows (t :: us) (t :: ts)

theorem acc_cons (s : Stage) (ts : List Task) (hts : Acc Follows ts) :
    ∀ t : Task, t.stage = s → Acc Follows (t :: ts) := by
  induction Stage.follows_wellFounded.apply s generalizing ts with
  | intro s _ ihs =>
    induction hts with
    | intro ts hts ihts =>
      intro t ht
      refine ⟨_, fun l h => ?_⟩
      cases h with
      | head _ u _ h => exact ihs u.stage (ht ▸ h) ts ⟨_, hts⟩ u rfl
      | tail _ us _ h => exact ihts us h t ht

/-- All tasks come to their ends, in whatever order they move on. -/
theorem follows_wellFounded : WellFounded Follows :=
  ⟨fun ts => by
    induction ts with
    | nil => exact ⟨_, fun _ h => nomatch h⟩
    | cons t ts ih => exact acc_cons t.stage ts ih t rfl⟩

theorem set_follows (ts : List Task) (i : Nat) (t u : Task) (ht : ts[i]? = some t)
    (h : Stage.Follows u.stage t.stage) : Follows (ts.set i u) ts := by
  induction ts generalizing i with
  | nil => simp at ht
  | cons a ts ih =>
    cases i with
    | zero =>
      simp only [List.getElem?_cons_zero, Option.some.injEq] at ht
      exact ht ▸ .head t u ts h
    | succ i => exact .tail a _ ts (ih i (by simpa using ht))

/-- The position of the task that wakes first, and when; of several the first one. -/
def earliest? : List Task → Option (Nat × Nat)
  | [] => none
  | t :: ts => match t.wake?, earliest? ts with
    | none, later => later.map fun (i, w) => (i + 1, w)
    | some w, none => some (0, w)
    | some w, some (i, v) => if w ≤ v then some (0, w) else some (i + 1, v)

theorem earliest?_wakes (ts : List Task) (i w : Nat) (h : earliest? ts = some (i, w)) :
    ∃ t, ts[i]? = some t ∧ t.wake? = some w := by
  induction ts generalizing i w with
  | nil => simp [earliest?] at h
  | cons t ts ih =>
    simp only [earliest?] at h
    split at h
    · simp only [Option.map_eq_some_iff, Prod.exists, Prod.mk.injEq] at h
      obtain ⟨j, v, hj, rfl, rfl⟩ := h
      simpa using ih j v hj
    · simp only [Option.some.injEq, Prod.mk.injEq] at h
      obtain ⟨rfl, rfl⟩ := h
      simp_all
    · next v hv =>
      split at h
      · simp only [Option.some.injEq, Prod.mk.injEq] at h
        obtain ⟨rfl, rfl⟩ := h
        simp_all
      · simp only [Option.some.injEq, Prod.mk.injEq] at h
        obtain ⟨rfl, rfl⟩ := h
        simpa using ih _ _ hv

end Task

end Commissioning

import Commissioning.Device.Hub

/-!
Activities: procedures that are under way while others are, too. A procedure runs until it has to
wait, for a pause or for the reply to a call, and goes on when it is woken. Every time it is woken
less of it is left, so an activity comes to its end whatever the hub is like each time.
-/
namespace Commissioning

/-- Where a procedure on a device stands. -/
inductive Activity (α : Type) where
  | ended (outcome : Outcome α)
  | pausing (wake : Nat) (rest : Procedure α)
  | calling (wake : Nat) (x : OpenCall) (next : Outcome Entries → Procedure α)

namespace Activity
variable {α : Type}

/-- Runs a procedure until it has to wait. -/
def start (a : Address) (h : Hub) : Procedure α → Activity α × Hub
  | .done x => (.ended (.ok x), h)
  | .fail e => (.ended (.error e), h)
  | .ask (.exchange r) next =>
    match h.begin a r with
    | (.closed outcome, h) => start a h (next outcome)
    | (.opened x, h) =>
      if h.duration x = 0 then
        let (outcome, h) := h.finish a x
        start a h (next outcome)
      else (.calling (h.now + h.duration x) x next, h)
  | .ask (.pause ms) next => (.pausing (h.now + ms) (next ()), h)
  | .ask .clock next => start a h (next h.now)
  | .ask (.log lines) next => start a (h.write lines) (next ())

/-- When an activity goes on. -/
def wake? : Activity α → Option Nat
  | .ended _ => none
  | .pausing wake _ | .calling wake _ _ => some wake

/-- Goes on until the next wait. -/
def resume (a : Address) (h : Hub) : Activity α → Activity α × Hub
  | .ended outcome => (.ended outcome, h)
  | .pausing _ rest => start a h rest
  | .calling _ x next =>
    let (outcome, h) := h.finish a x
    start a h (next outcome)

/-- `b` is what an activity that waits goes on to, for some hub. -/
inductive Follows : Activity α → Activity α → Prop where
  | pausing (a : Address) (h : Hub) (wake : Nat) (rest : Procedure α) :
    Follows (start a h rest).1 (.pausing wake rest)
  | calling (a : Address) (h : Hub) (outcome : Outcome Entries) (wake : Nat) (x : OpenCall)
    (next : Outcome Entries → Procedure α) :
    Follows (start a h (next outcome)).1 (.calling wake x next)

theorem resume_follows (a : Address) (h : Hub) (b : Activity α) (waits : b.wake?.isSome) :
    Follows (b.resume a h).1 b := by
  cases b with
  | ended outcome => simp [wake?] at waits
  | pausing wake rest => exact .pausing a h wake rest
  | calling wake x next => exact .calling a (h.finish a x).2 (h.finish a x).1 wake x next

theorem acc_ended (outcome : Outcome α) : Acc Follows (.ended outcome) :=
  ⟨_, fun _ h => nomatch h⟩

theorem acc_pausing (wake : Nat) (rest : Procedure α)
    (ends : ∀ a h, Acc Follows (start a h rest).1) : Acc Follows (.pausing wake rest) :=
  ⟨_, fun _ h => by cases h; exact ends _ _⟩

theorem acc_calling (wake : Nat) (x : OpenCall) (next : Outcome Entries → Procedure α)
    (ends : ∀ outcome a h, Acc Follows (start a h (next outcome)).1) :
    Acc Follows (.calling wake x next) :=
  ⟨_, fun _ h => by cases h; exact ends _ _ _⟩

/-- A procedure that is started comes to its end. -/
theorem acc_start (p : Procedure α) (a : Address) (h : Hub) : Acc Follows (start a h p).1 := by
  induction p generalizing a h with
  | done x => exact acc_ended _
  | fail e => exact acc_ended _
  | ask e next ih =>
    cases e with
    | exchange r =>
      simp only [start]
      split
      · exact ih _ _ _
      · split
        · exact ih _ _ _
        · exact acc_calling _ _ _ fun outcome a h => ih outcome a h
    | pause ms => exact acc_pausing _ _ fun a h => ih () a h
    | clock => exact ih _ _ _
    | log lines => exact ih () _ _

/-- Every activity comes to its end. -/
theorem follows_wellFounded : WellFounded (Follows (α := α)) :=
  ⟨fun b => match b with
    | .ended outcome => acc_ended outcome
    | .pausing wake rest => acc_pausing wake rest fun a h => acc_start rest a h
    | .calling wake x next =>
      acc_calling wake x next fun outcome a h => acc_start (next outcome) a h⟩

end Activity

end Commissioning

import Commissioning.Proofs.Device.Faults
import Commissioning.Proofs.Service.Reachable

/-!
Turns: in whatever order tasks move on and devices change, each call of a cluster and each event is
put down to the task that was woken when it came.

    wake 0        wake 1      arrange     wake 0
    (0, read)     nothing     nothing     (0, write), (0, event)

Records only grow, so what is put down to all tasks together is all that there is; and a task that
has ended has nothing put down to it any more.
-/
namespace Commissioning.Session
variable {s : Session} {t : Task} {j : Job} {i : Nat} {γ : Type} {record : Session → List γ}

/-- What moves a session on: a task is woken, or a device changes. -/
inductive Turn where
  | wake (i : Nat)
  | arrange (a : Address) (f : Device → Device)

/-- A session after one turn. -/
def turn (s : Session) : Turn → Session
  | .wake i => s.advance i
  | .arrange a f => s.arrange a f

/-- A session after turns. -/
def after (s : Session) (turns : List Turn) : Session := turns.foldl turn s

/-- A session with calls that have just been made. -/
def opened (s : Session) (calls : List Call) : Session :=
  { s.fresh with tasks := calls.map (Task.ofCall s.hub.now) }

/-- The calls of clusters that have been made. -/
def made (s : Session) : List CallRecord := s.hub.calls

/-- What a record gains in some turns, with the position of the task that was woken. -/
def gained (record : Session → List γ) (s : Session) : List Turn → List (Nat × γ)
  | [] => []
  | .wake i :: turns =>
    ((record (s.advance i)).drop (record s).length).map (fun x => (i, x)) ++
      gained record (s.advance i) turns
  | .arrange a f :: turns => gained record (s.arrange a f) turns

theorem after_wake (s : Session) (i : Nat) : s.after [.wake i] = s.advance i := rfl

/-- What is put down to the task at a position. -/
def ofTask (i : Nat) (xs : List (Nat × γ)) : List γ := (xs.filter fun x => x.1 = i).map Prod.snd

theorem ofTask_append (i : Nat) (xs ys : List (Nat × γ)) :
    ofTask i (xs ++ ys) = ofTask i xs ++ ofTask i ys := by
  simp [ofTask]

theorem ofTask_self (i : Nat) (xs : List γ) : ofTask i (xs.map fun x => (i, x)) = xs := by
  simp [ofTask, List.filter_map, Function.comp_def]

theorem ofTask_of_ne {k : Nat} (hk : k ≠ i) (xs : List γ) :
    ofTask i (xs.map fun x => (k, x)) = [] := by
  simp [ofTask, List.filter_map, Function.comp_def, hk]

/-- Nothing of a list is put down to the task at a position. -/
def NotBy (i : Nat) (xs : List (Nat × γ)) : Prop := ∀ x ∈ xs, x.1 ≠ i

theorem notBy_iff {xs : List (Nat × γ)} : NotBy i xs ↔ ofTask i xs = [] := by
  simp [NotBy, ofTask]

/-- What one turn adds to what is put down to a task. -/
theorem ofTask_gained_wake (record : Session → List γ) (s : Session) (i k : Nat)
    (turns : List Turn) : ofTask i (gained record s (.wake k :: turns)) =
      (if k = i then (record (s.advance k)).drop (record s).length else []) ++
        ofTask i (gained record (s.advance k) turns) := by
  rw [gained, ofTask_append]
  by_cases hk : k = i
  · rw [if_pos hk, hk, ofTask_self]
  · rw [if_neg hk, ofTask_of_ne hk]

/-! ### Records only grow -/

/-- Two records of a session only grow on the way to another one. -/
structure Grows (s s' : Session) : Prop where
  made : s.made <+: s'.made
  events : s.events <+: s'.events

theorem Grows.rfl {s : Session} : Grows s s := ⟨List.prefix_rfl, List.prefix_rfl⟩

theorem settle_grows {began : Nat} {r : Activity Entries × Hub} (hr : s.made <+: r.2.calls) :
    Grows s (s.settle j began r).2 := by
  unfold settle
  split
  · next outcome _ =>
    obtain ⟨hhub, hevents⟩ :=
      release_keeps (({ s with hub := r.2 } : Session).conclude j began outcome) j
    constructor
    · rw [made, made, hhub]
      exact hr
    · rw [hevents]
      exact List.prefix_append _ _
  · exact ⟨hr, List.prefix_rfl⟩

theorem launch_grows (s : Session) (j : Job) : Grows s (s.launch j).2 :=
  settle_grows (Activity.calls_start _ _ _)

theorem enter_grows (s : Session) (j : Job) : Grows s (s.enter j).2 := by
  unfold enter
  split
  · exact launch_grows s j
  · next o key _ =>
    split
    · exact .rfl
    · next tables _ =>
      dsimp only
      split
      · exact ⟨List.prefix_rfl, List.prefix_rfl⟩
      · exact ⟨List.prefix_rfl, List.prefix_rfl⟩
      · have hlaunch := launch_grows (setLock { s with tables } key .held) j
        exact ⟨hlaunch.made, hlaunch.events⟩

theorem move_grows (s : Session) (t : Task) : Grows s (s.move t).2 := by
  unfold move
  split
  · unfold start
    dsimp only
    split
    · exact ⟨List.prefix_rfl, List.prefix_rfl⟩
    · next j _ =>
      have henter := enter_grows (s.write (t.call.service.job t.call.data s.hub s.hasGateway).log) j
      exact ⟨henter.made, henter.events⟩
  · next j began activity _ =>
    split
    · obtain ⟨hhub, hevents⟩ := release_keeps s j
      have hmade : s.made <+: (s.release j).hub.calls := hhub ▸ List.prefix_rfl
      have hfired : s.events <+: (s.release j).events := hevents ▸ List.prefix_rfl
      exact ⟨hmade, hfired⟩
    · exact settle_grows (Activity.calls_resume _ _ _)
  · exact .rfl

theorem advance_grows (s : Session) (i : Nat) : Grows s (s.advance i) := by
  cases ht : s.tasks[i]? with
  | none =>
    rw [advance, ht]
    exact .rfl
  | some t =>
    rw [advance_eq ht]
    have hmove := move_grows (s.atWake t) t
    exact ⟨hmove.made, hmove.events⟩

/-- Everything that a record gains is put down to some task. -/
theorem record_after {record : Session → List γ} (hgrows : ∀ s i, record s <+: record (s.advance i))
    (hkeeps : ∀ s a f, record (s.arrange a f) = record s) (turns : List Turn) :
    record (s.after turns) = record s ++ (gained record s turns).map Prod.snd := by
  induction turns generalizing s with
  | nil => simp [after, gained]
  | cons turn turns ih =>
    cases turn with
    | wake i =>
      obtain ⟨more, hmore⟩ := hgrows s i
      have hrest : record ((s.advance i).after turns) = _ := ih
      change record ((s.advance i).after turns) = _
      rw [hrest, gained, ← hmore]
      simp [Function.comp_def]
    | arrange a f =>
      have hrest : record ((s.arrange a f).after turns) = _ := ih
      change record ((s.arrange a f).after turns) = _
      rw [hrest, gained, hkeeps]

/-! ### Tasks from turn to turn -/

theorem getElem?_after {turns : List Turn} (h : ((s.after turns).tasks[i]?).isSome) :
    (s.tasks[i]?).isSome := by
  induction turns generalizing s with
  | nil => exact h
  | cons turn turns ih =>
    cases turn with
    | arrange a f => exact ih (s := s.arrange a f) h
    | wake k =>
      have hk := ih (s := s.advance k) h
      cases hk' : s.tasks[k]? with
      | none =>
        rw [advance, hk'] at hk
        exact hk
      | some t =>
        rw [advance_eq hk'] at hk
        simpa using hk

theorem Reachable.after (h : s.Reachable) (turns : List Turn) : (s.after turns).Reachable := by
  induction turns generalizing s with
  | nil => exact h
  | cons turn turns ih =>
    cases turn with
    | wake k => exact ih (h.advance k)
    | arrange a f => exact ih (h.arrange a f)

/-- Two sessions have the same records. -/
structure Same (s s' : Session) : Prop where
  made : s'.made = s.made
  events : s'.events = s.events

/-- A wake that adds nothing to a record leaves it to later turns to put something down. -/
theorem ofTask_gained_same (hsame : ∀ s s', Same s s' → record s' = record s) {k : Nat}
    (h : Same s (s.advance k)) (turns : List Turn) :
    ofTask i (gained record s (.wake k :: turns)) = ofTask i (gained record (s.advance k) turns) := by
  rw [ofTask_gained_wake, hsame _ _ h, List.drop_length, ite_self, List.nil_append]

/-- A task that has ended stays as it is, and nothing is put down to it any more. -/
theorem after_of_ended (hsame : ∀ s s', Same s s' → record s' = record s) {finish : Nat}
    {outcome : Outcome Entries} (ht : s.tasks[i]? = some t) (hend : t.stage = .ended finish outcome)
    (turns : List Turn) :
    (s.after turns).tasks[i]? = some t ∧ ofTask i (gained record s turns) = [] := by
  induction turns generalizing s with
  | nil => exact ⟨ht, rfl⟩
  | cons turn turns ih =>
    cases turn with
    | arrange a f => exact ih (s := s.arrange a f) ht
    | wake k =>
      by_cases hk : k = i
      · subst hk
        have hmove : (s.atWake t).move t = (t.stage, s.atWake t) := by simp only [move, hend]
        have hadvance : s.advance k = { s.atWake t with tasks := s.tasks.set k t } := by
          rw [advance_eq ht, hmove]
        have hkeeps : Same s (s.advance k) := by
          rw [hadvance]
          exact ⟨rfl, rfl⟩
        have ht' : (s.advance k).tasks[k]? = some t := by
          rw [getElem?_advance ht, hmove]
        rw [ofTask_gained_same hsame hkeeps]
        exact ih ht'
      · rw [ofTask_gained_wake, if_neg hk]
        exact ih (s := s.advance k) ((getElem?_advance_of_ne hk).trans ht)

theorem same_of_cancelled {began : Nat} {activity : Activity Entries} (ht : s.tasks[i]? = some t)
    (hst : t.stage = .running j began activity) (hc : t.isCancelled) : Same s (s.advance i) := by
  obtain ⟨hhub, hevents⟩ := release_keeps (s.atWake t) j
  have hcalls : ((s.atWake t).release j).hub.calls = s.hub.calls := by
    rw [hhub]
    rfl
  rw [advance_eq ht, move_of_cancelled hst hc]
  exact ⟨hcalls, hevents⟩

/-- Once a task has been cancelled nothing is put down to it. -/
theorem ofTask_of_cancelled (hsame : ∀ s s', Same s s' → record s' = record s)
    (ht : s.tasks[i]? = some t) (hc : t.isCancelled) (turns : List Turn) :
    ofTask i (gained record s turns) = [] := by
  cases hst : t.stage with
  | waiting start => simp [Task.isCancelled, hst] at hc
  | ended finish outcome => exact (after_of_ended hsame ht hst turns).2
  | running j began activity =>
    induction turns generalizing s with
    | nil => rfl
    | cons turn turns ih =>
      cases turn with
      | arrange a f => exact ih (s := s.arrange a f) ht
      | wake k =>
        by_cases hk : k = i
        · subst hk
          have hend : ((s.atWake t).move t).1 = .ended _ (.error .cancelled) :=
            congrArg Prod.fst (move_of_cancelled hst hc)
          rw [ofTask_gained_same hsame (same_of_cancelled ht hst hc)]
          exact (after_of_ended hsame (getElem?_advance ht) hend turns).2
        · rw [ofTask_gained_wake, if_neg hk]
          exact ih (s := s.advance k) ((getElem?_advance_of_ne hk).trans ht)

end Commissioning.Session

import Commissioning.Proofs.Exchange.Run

/-!
Runs with everything that they wait for, their pauses included. What a run waits for next follows
from how its waits have ended so far, so two runs that agree up to some wait agree on the next one,
however it ends:

    before ++ [read, no answer]              given up
    before ++ [read, a failure]              raised
    before ++ read, values :: rest           goes on

The calls of the first two are a beginning of the calls of the third.
-/
namespace Commissioning
variable {α : Type}

/-- What a run waits for: the answer to a request, or time to pass. A wait in which a run is given up
has no end. -/
inductive Wait where
  | exchange (x : Exchange)
  | pause (ms since : Nat) (woken : Option Nat)

namespace Wait

/-- The exchange that is waited for. -/
def exchange? : Wait → Option Exchange
  | exchange x => some x
  | pause .. => none

/-- When a wait began. -/
def since : Wait → Nat
  | exchange x => x.sent
  | pause _ since _ => since

/-- A wait as it was when it began. -/
def opened : Wait → Wait
  | exchange x => exchange { x with reply := none }
  | pause ms since _ => pause ms since none

/-- A wait that is not over. -/
def IsOpen (x : Wait) : Prop := x = x.opened

/-- A wait that is over, after at least the time of its pause. -/
def IsOver : Wait → Prop
  | exchange x => ∃ later answer, x.reply = some (later, answer) ∧ x.sent ≤ later
  | pause ms since woken => ∃ later, woken = some later ∧ since + ms ≤ later

/-- The failure that a wait ends with. -/
def FailsWith (x : Wait) (q : Request) (e : Fault) : Prop :=
  ∃ sent later, x = exchange ⟨q, sent, some (later, .error e)⟩

end Wait

/-- The exchanges among some waits. -/
def exchangesOf (w : List Wait) : List Exchange := w.filterMap Wait.exchange?

/-- The requests among some waits, with the times at which they were sent. -/
def callsOf (w : List Wait) : List (Nat × Request) :=
  (exchangesOf w).map fun x => (x.sent, x.request)

theorem callsOf_append (w w' : List Wait) : callsOf (w ++ w') = callsOf w ++ callsOf w' := by
  simp [callsOf, exchangesOf]

theorem callsOf_cons_opened (x : Wait) (w : List Wait) :
    callsOf (x :: w) = callsOf [x.opened] ++ callsOf w := by
  cases x <;> rfl

namespace Procedure
variable {p : Procedure α} {now finish finish' : Nat} {w w' before rest rest' : List Wait}
  {x y : Wait} {r r' : Except Stop α}

/-- A run of a procedure from `now` to `finish`, with its waits and its end. -/
def Takes : Procedure α → Nat → List Wait → Except Stop α → Nat → Prop
  | .done a, now, w, r, finish => w = [] ∧ r = .ok a ∧ finish = now
  | .fail e, now, w, r, finish => w = [] ∧ r = .error (.raised e) ∧ finish = now
  | .ask (.exchange q) next, now, w, r, finish =>
    (now ≤ finish ∧ w = [.exchange ⟨q, now, none⟩] ∧ r = .error .cancelled) ∨
    ∃ later answer rest, now ≤ later ∧ w = .exchange ⟨q, now, some (later, answer)⟩ :: rest ∧
      Takes (next answer) later rest r finish
  | .ask (.pause ms) next, now, w, r, finish =>
    (now ≤ finish ∧ w = [.pause ms now none] ∧ r = .error .cancelled) ∨
    ∃ later rest, now + ms ≤ later ∧ w = .pause ms now (some later) :: rest ∧
      Takes (next ()) later rest r finish
  | .ask .clock next, now, w, r, finish => Takes (next now) now w r finish
  | .ask (.log _) next, now, w, r, finish => Takes (next ()) now w r finish

/-- Runs are told by their exchanges alone, too. -/
theorem runs_iff_takes {t : List Exchange} :
    Runs p now t r finish ↔ ∃ w, Takes p now w r finish ∧ exchangesOf w = t := by
  induction p generalizing now t with
  | done a =>
    constructor
    · rintro ⟨rfl, h⟩
      exact ⟨[], ⟨rfl, h⟩, rfl⟩
    · rintro ⟨_, ⟨rfl, h⟩, rfl⟩
      exact ⟨rfl, h⟩
  | fail e =>
    constructor
    · rintro ⟨rfl, h⟩
      exact ⟨[], ⟨rfl, h⟩, rfl⟩
    · rintro ⟨_, ⟨rfl, h⟩, rfl⟩
      exact ⟨rfl, h⟩
  | ask e next ih =>
    cases e with
    | exchange q =>
      constructor
      · rintro (⟨hf, rfl, hr⟩ | ⟨later, answer, rest, hl, rfl, h⟩)
        · exact ⟨_, .inl ⟨hf, rfl, hr⟩, rfl⟩
        · obtain ⟨w, hw, rfl⟩ := (ih answer).mp h
          exact ⟨_, .inr ⟨later, answer, w, hl, rfl, hw⟩, rfl⟩
      · rintro ⟨_, ⟨hf, rfl, hr⟩ | ⟨later, answer, w, hl, rfl, h⟩, rfl⟩
        · exact .inl ⟨hf, rfl, hr⟩
        · exact .inr ⟨later, answer, exchangesOf w, hl, rfl, (ih answer).mpr ⟨w, h, rfl⟩⟩
    | pause ms =>
      constructor
      · rintro (⟨hf, rfl, hr⟩ | ⟨later, hl, h⟩)
        · exact ⟨_, .inl ⟨hf, rfl, hr⟩, rfl⟩
        · obtain ⟨w, hw, rfl⟩ := (ih ()).mp h
          exact ⟨_, .inr ⟨later, w, hl, rfl, hw⟩, rfl⟩
      · rintro ⟨_, ⟨hf, rfl, hr⟩ | ⟨later, w, hl, rfl, h⟩, rfl⟩
        · exact .inl ⟨hf, rfl, hr⟩
        · exact .inr ⟨later, hl, (ih ()).mpr ⟨w, h, rfl⟩⟩
    | clock => exact ih now
    | log lines => exact ih ()

/-! ### What comes next -/

section
variable {q : Request} {next : Outcome Entries → Procedure α} {ms : Nat} {next' : Unit → Procedure α}

theorem opened_of_exchange (h : Takes (.ask (.exchange q) next) now (x :: rest) r finish) :
    x.opened = .exchange ⟨q, now, none⟩ := by
  rcases h with ⟨-, hw, -⟩ | ⟨_, _, _, -, hw, -⟩
  · cases hw
    rfl
  · cases hw
    rfl

theorem opened_of_pause (h : Takes (.ask (.pause ms) next') now (x :: rest) r finish) :
    x.opened = .pause ms now none := by
  rcases h with ⟨-, hw, -⟩ | ⟨_, _, -, hw, -⟩
  · cases hw
    rfl
  · cases hw
    rfl

/-- A request that is not the last wait of a run has been answered. -/
theorem takes_exchange_cons
    (h : Takes (.ask (.exchange q) next) now (y :: (before ++ x :: rest)) r finish) :
    ∃ later answer, now ≤ later ∧ y = .exchange ⟨q, now, some (later, answer)⟩ ∧
      Takes (next answer) later (before ++ x :: rest) r finish := by
  rcases h with ⟨-, hw, -⟩ | ⟨later, answer, _, hl, hw, h⟩
  · simp at hw
  · cases hw
    exact ⟨later, answer, hl, rfl, h⟩

/-- A pause that is not the last wait of a run is over. -/
theorem takes_pause_cons
    (h : Takes (.ask (.pause ms) next') now (y :: (before ++ x :: rest)) r finish) :
    ∃ later, now + ms ≤ later ∧ y = .pause ms now (some later) ∧
      Takes (next' ()) later (before ++ x :: rest) r finish := by
  rcases h with ⟨-, hw, -⟩ | ⟨later, _, hl, hw, h⟩
  · simp at hw
  · cases hw
    exact ⟨later, hl, rfl, h⟩

end

/-- Two runs that agree up to some wait wait for the same thing then. -/
theorem Takes.next_eq (h : Takes p now (before ++ x :: rest) r finish)
    (h' : Takes p now (before ++ y :: rest') r' finish') : x.opened = y.opened := by
  induction p generalizing now before with
  | done a => simp [Takes] at h
  | fail e => simp [Takes] at h
  | ask e next ih =>
    cases e with
    | exchange q =>
      cases before with
      | nil => exact (opened_of_exchange h).trans (opened_of_exchange h').symm
      | cons b before =>
        obtain ⟨later, answer, -, rfl, hnext⟩ := takes_exchange_cons h
        obtain ⟨_, _, -, ⟨⟩, hnext'⟩ := takes_exchange_cons h'
        exact ih answer hnext hnext'
    | pause ms =>
      cases before with
      | nil => exact (opened_of_pause h).trans (opened_of_pause h').symm
      | cons b before =>
        obtain ⟨later, -, rfl, hnext⟩ := takes_pause_cons h
        obtain ⟨_, -, ⟨⟩, hnext'⟩ := takes_pause_cons h'
        exact ih () hnext hnext'
    | clock => exact ih now h h'
    | log lines => exact ih () h h'

/-- No run is a part of another one: each goes on until it ends or is given up. -/
theorem Takes.not_append (h : Takes p now before r finish) :
    ¬ Takes p now (before ++ y :: rest) r' finish' := by
  intro h'
  induction p generalizing now before with
  | done a => simp [Takes] at h'
  | fail e => simp [Takes] at h'
  | ask e next ih =>
    cases e with
    | exchange q =>
      rcases h with ⟨-, rfl, -⟩ | ⟨later, answer, w, -, rfl, h⟩
      · rcases h' with ⟨-, hw, -⟩ | ⟨_, _, _, -, hw, -⟩
        · simp at hw
        · cases hw
      · rcases h' with ⟨-, hw, -⟩ | ⟨_, _, _, -, hw, h'⟩
        · simp at hw
        · cases hw
          exact ih answer h h'
    | pause ms =>
      rcases h with ⟨-, rfl, -⟩ | ⟨later, w, -, rfl, h⟩
      · rcases h' with ⟨-, hw, -⟩ | ⟨_, _, -, hw, -⟩
        · simp at hw
        · cases hw
      · rcases h' with ⟨-, hw, -⟩ | ⟨_, _, -, hw, h'⟩
        · simp at hw
        · cases hw
          exact ih () h h'
    | clock => exact ih now h h'
    | log lines => exact ih () h h'

/-- The calls of a run up to its last wait begin every run that agrees with it before that wait. -/
theorem Takes.callsOf_prefix (h : Takes p now (before ++ [x]) r finish)
    (h' : Takes p now w' r' finish') (hw : before <+: w') :
    callsOf (before ++ [x]) <+: callsOf w' := by
  obtain ⟨more, rfl⟩ := hw
  cases more with
  | nil =>
    rw [List.append_nil] at h'
    exact absurd h h'.not_append
  | cons y rest =>
    have hnext : x.opened = y.opened := h.next_eq h'
    refine ⟨callsOf rest, ?_⟩
    rw [callsOf_append, callsOf_append, callsOf_cons_opened x, callsOf_cons_opened y, hnext]
    simp [callsOf, exchangesOf]

/-! ### How a run ends -/

/-- Every wait of a run begins before the run ends. -/
theorem Takes.since_le (h : Takes p now w r finish) : now ≤ finish ∧ ∀ x ∈ w, x.since ≤ finish := by
  induction p generalizing now w with
  | done a =>
    obtain ⟨rfl, -, rfl⟩ := h
    simp
  | fail e =>
    obtain ⟨rfl, -, rfl⟩ := h
    simp
  | ask e next ih =>
    cases e with
    | exchange q =>
      rcases h with ⟨hf, rfl, -⟩ | ⟨later, answer, rest, hl, rfl, h⟩
      · exact ⟨hf, by simpa [Wait.since] using hf⟩
      · obtain ⟨hlater, hrest⟩ := ih answer h
        have hnow : now ≤ finish := Nat.le_trans hl hlater
        exact ⟨hnow, List.forall_mem_cons.mpr ⟨hnow, hrest⟩⟩
    | pause ms =>
      rcases h with ⟨hf, rfl, -⟩ | ⟨later, rest, hl, rfl, h⟩
      · exact ⟨hf, by simpa [Wait.since] using hf⟩
      · obtain ⟨hlater, hrest⟩ := ih () h
        have hnow : now ≤ finish := by omega
        exact ⟨hnow, List.forall_mem_cons.mpr ⟨hnow, hrest⟩⟩
    | clock => exact ih now h
    | log lines => exact ih () h

/-- A run that is given up ends in the wait in which it is given up, and only such a run does. -/
theorem Takes.last_open (h : Takes p now w r finish) :
    (r = .error .cancelled ↔ ∃ x ∈ w, x.IsOpen) ∧
      (r = .error .cancelled → ∃ before x, w = before ++ [x] ∧ x.IsOpen) := by
  induction p generalizing now w with
  | done a =>
    obtain ⟨rfl, rfl, -⟩ := h
    simp
  | fail e =>
    obtain ⟨rfl, rfl, -⟩ := h
    simp
  | ask e next ih =>
    cases e with
    | exchange q =>
      rcases h with ⟨-, rfl, rfl⟩ | ⟨later, answer, rest, -, rfl, h⟩
      · have hopen : (Wait.exchange ⟨q, now, none⟩).IsOpen := rfl
        exact ⟨iff_of_true rfl ⟨_, .head _, hopen⟩, fun _ => ⟨[], _, rfl, hopen⟩⟩
      · obtain ⟨hiff, hlast⟩ := ih answer h
        have hclosed : ¬ (Wait.exchange ⟨q, now, some (later, answer)⟩).IsOpen := by
          simp [Wait.IsOpen, Wait.opened]
        refine ⟨hiff.trans (by simp [hclosed]), fun hr => ?_⟩
        obtain ⟨before, x, rfl, hx⟩ := hlast hr
        exact ⟨_ :: before, x, rfl, hx⟩
    | pause ms =>
      rcases h with ⟨-, rfl, rfl⟩ | ⟨later, rest, -, rfl, h⟩
      · have hopen : (Wait.pause ms now none).IsOpen := rfl
        exact ⟨iff_of_true rfl ⟨_, .head _, hopen⟩, fun _ => ⟨[], _, rfl, hopen⟩⟩
      · obtain ⟨hiff, hlast⟩ := ih () h
        have hclosed : ¬ (Wait.pause ms now (some later)).IsOpen := by
          simp [Wait.IsOpen, Wait.opened]
        refine ⟨hiff.trans (by simp [hclosed]), fun hr => ?_⟩
        obtain ⟨before, x, rfl, hx⟩ := hlast hr
        exact ⟨_ :: before, x, rfl, hx⟩
    | clock => exact ih now h
    | log lines => exact ih () h

/-- Every procedure can run to an end of its own. -/
theorem exists_takes (p : Procedure α) (now : Nat) :
    ∃ w r finish, Takes p now w r finish ∧ r ≠ .error .cancelled := by
  induction p generalizing now with
  | done a => exact ⟨[], .ok a, now, ⟨rfl, rfl, rfl⟩, nofun⟩
  | fail e => exact ⟨[], .error (.raised e), now, ⟨rfl, rfl, rfl⟩, nofun⟩
  | ask e next ih =>
    cases e with
    | exchange q =>
      obtain ⟨w, r, finish, h, hr⟩ := ih (.ok []) now
      exact ⟨_, r, finish, .inr ⟨now, .ok [], w, Nat.le_refl _, rfl, h⟩, hr⟩
    | pause ms =>
      obtain ⟨w, r, finish, h, hr⟩ := ih () (now + ms)
      exact ⟨_, r, finish, .inr ⟨now + ms, w, Nat.le_refl _, rfl, h⟩, hr⟩
    | clock => exact ih now now
    | log lines => exact ih () now

/-- Whatever a run waits for, there is a run in which that wait ends in any given way, and which goes
on to an end of its own. -/
theorem Takes.exists_resumed (h : Takes p now (before ++ x :: rest) r finish) (hy : y.IsOver)
    (hxy : y.opened = x.opened) : ∃ rest' r' finish',
      Takes p now (before ++ y :: rest') r' finish' ∧ r' ≠ .error .cancelled := by
  induction p generalizing now before with
  | done a => simp [Takes] at h
  | fail e => simp [Takes] at h
  | ask e next ih =>
    cases e with
    | exchange q =>
      cases before with
      | nil =>
        rw [opened_of_exchange h] at hxy
        cases y with
        | pause ms since woken => cases hxy
        | exchange y =>
          cases hxy
          obtain ⟨later, answer, hreply, hl⟩ := hy
          obtain ⟨w, r', finish', h', hr'⟩ := exists_takes (next answer) later
          refine ⟨w, r', finish', .inr ⟨later, answer, w, hl, ?_, h'⟩, hr'⟩
          rw [← hreply]
          rfl
      | cons b before =>
        obtain ⟨later, answer, hl, rfl, hnext⟩ := takes_exchange_cons h
        obtain ⟨rest', r', finish', h', hr'⟩ := ih answer hnext
        exact ⟨rest', r', finish', .inr ⟨later, answer, _, hl, rfl, h'⟩, hr'⟩
    | pause ms =>
      cases before with
      | nil =>
        rw [opened_of_pause h] at hxy
        cases y with
        | exchange y => cases hxy
        | pause ms' since woken =>
          cases hxy
          obtain ⟨later, rfl, hl⟩ := hy
          obtain ⟨w, r', finish', h', hr'⟩ := exists_takes (next ()) later
          exact ⟨w, r', finish', .inr ⟨later, w, hl, rfl, h'⟩, hr'⟩
      | cons b before =>
        obtain ⟨later, hl, rfl, hnext⟩ := takes_pause_cons h
        obtain ⟨rest', r', finish', h', hr'⟩ := ih () hnext
        exact ⟨rest', r', finish', .inr ⟨later, _, hl, rfl, h'⟩, hr'⟩
    | clock => exact ih now h
    | log lines => exact ih () h

end Procedure

end Commissioning

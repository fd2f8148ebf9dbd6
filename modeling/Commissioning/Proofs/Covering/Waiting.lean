import Commissioning.Proofs.Covering.Exchanges
import Commissioning.Proofs.Device.Feed
import Mathlib.Algebra.BigOperators.Group.Finset.Basic
import Mathlib.Data.Nat.Find

/-!
The wait until the motor stands still. Each question comes an interval after the answer before it, so
the time of the answers grows by an interval at least, and after so many questions the time for a
travel is over. The wait ends with the first answer that stands still or comes too late.

    interval  answer 0  interval  answer 1  interval  answer 2
    ────────────┤ 0 → settle
                ┤ else ────────────┤ 0 → settle
                                   ┤ past the limit → fault
-/
namespace Commissioning.Covering
open Attribute Procedure
variable {f : Feed} {i n start : Nat}

/-- Whether an answer tells that the motor stands still. -/
def Stands (values : Entries) : Prop := (values.get operationalStatus).equalsInt motorStopped

/-- The time until a number of questions is answered. -/
def polled (latency : Nat → Nat) (n : Nat) : Nat :=
  ∑ j ∈ Finset.range n, (pollInterval + latency j)

theorem polled_succ (latency : Nat → Nat) (n : Nat) :
    polled latency (n + 1) = polled latency n + (pollInterval + latency n) :=
  Finset.sum_range_succ _ n

theorem le_polled (latency : Nat → Nat) (n : Nat) : n * pollInterval ≤ polled latency n := by
  induction n with
  | zero => exact Nat.zero_le _
  | succ n ih =>
    rw [polled_succ, Nat.succ_mul]
    omega

/-- The wait goes on after an answer: the motor runs, and the time for a travel is not over. -/
def GoesOn (f : Feed) (i : Nat) : Prop :=
  ∃ values, f.answer i = .ok values ∧ ¬ Stands values ∧ polled f.latency (i + 1) ≤ travelLimit

/-- How a wait ends with its `n`-th answer, counted from zero. -/
inductive WaitEnds (phase : String) (f : Feed) (now n : Nat) : Outcome Unit → Nat → Prop where
  | stopped {values : Entries} (h : f.answer n = .ok values) (hs : Stands values) :
    WaitEnds phase f now n (.ok ()) (now + polled f.latency (n + 1) + settleTime)
  | late {values : Entries} (h : f.answer n = .ok values) (hs : ¬ Stands values)
    (hlate : travelLimit < polled f.latency (n + 1)) :
    WaitEnds phase f now n (.error (.motorRunning phase (polled f.latency (n + 1))
      (values.get operationalStatus))) (now + polled f.latency (n + 1))
  | failed {e : Fault} (h : f.answer n = .error e) :
    WaitEnds phase f now n (.error e) (now + polled f.latency (n + 1))

/-! ### One question -/

theorem play_pollOnce_ok {α : Type} {now : Nat} {values : Entries} {g : Value × Nat → Procedure α}
    (h : f.answer 0 = .ok values) : (pollOnce start >>= g).play f now =
      let later := now + (pollInterval + f.latency 0)
      let rest := (g (values.get operationalStatus, later - start)).play (f.drop 1) later
      { rest with calls := (now + pollInterval, statusRead) :: rest.calls } := by
  rw [pollOnce, ← Nat.add_assoc]
  simp only [bind_assoc]
  change Recording.mk _ _ _ _ = _
  simp only [h]
  rfl

theorem play_pollOnce_error {α : Type} {now : Nat} {e : Fault} {g : Value × Nat → Procedure α}
    (h : f.answer 0 = .error e) : (pollOnce start >>= g).play f now =
      ⟨[(now + pollInterval, statusRead)], [], .error e, now + (pollInterval + f.latency 0)⟩ := by
  rw [pollOnce, ← Nat.add_assoc]
  simp only [bind_assoc]
  change Recording.mk _ _ _ _ = _
  simp only [h]
  rfl

variable {phase : String} {left : Nat}

/-- The wait from its `i`-th question on. -/
def waitFrom (phase : String) (f : Feed) (start left i : Nat) : Recording Unit :=
  (pollUntilStopped phase start i left).play (f.drop i) (start + polled f.latency i)

/-- The first questions of a wait. -/
def questions (latency : Nat → Nat) (start n : Nat) : List (Nat × Request) :=
  (List.range n).map fun i => (start + polled latency i + pollInterval, statusRead)

theorem answered (latency : Nat → Nat) (start i : Nat) :
    start + polled latency i + (pollInterval + latency i) = start + polled latency (i + 1) := by
  rw [polled_succ, Nat.add_assoc]

theorem waitFrom_error {e : Fault} (h : f.answer i = .error e) : waitFrom phase f start left i =
    ⟨[(start + polled f.latency i + pollInterval, statusRead)], [], .error e,
      start + polled f.latency (i + 1)⟩ := by
  rw [waitFrom, pollUntilStopped.eq_def, play_pollOnce_error (f := f.drop i) (by simpa using h)]
  simp only [Feed.latency_drop, Nat.zero_add, answered]

theorem waitFrom_stands (phase : String) (start left : Nat) {values : Entries}
    (h : f.answer i = .ok values) (hs : Stands values) :
    (waitFrom phase f start left i).calls =
        [(start + polled f.latency i + pollInterval, statusRead)] ∧
      (waitFrom phase f start left i).outcome = .ok () ∧
      (waitFrom phase f start left i).finish = start + polled f.latency (i + 1) + settleTime := by
  rw [waitFrom, pollUntilStopped.eq_def, play_pollOnce_ok (f := f.drop i) (by simpa using h)]
  simp only [Feed.latency_drop, Nat.zero_add, answered, Feed.drop_drop, Nat.add_sub_cancel_left]
  rw [Stands] at hs
  rw [if_pos hs]
  exact ⟨rfl, rfl, rfl⟩

theorem waitFrom_late {values : Entries} (h : f.answer i = .ok values) (hs : ¬ Stands values)
    (hlate : travelLimit < polled f.latency (i + 1)) : waitFrom phase f start left i =
      ⟨[(start + polled f.latency i + pollInterval, statusRead)], [],
        .error (.motorRunning phase (polled f.latency (i + 1)) (values.get operationalStatus)),
        start + polled f.latency (i + 1)⟩ := by
  rw [waitFrom, pollUntilStopped.eq_def, play_pollOnce_ok (f := f.drop i) (by simpa using h)]
  simp only [Feed.latency_drop, Nat.zero_add, answered, Feed.drop_drop, Nat.add_sub_cancel_left]
  rw [Stands] at hs
  rw [if_neg hs]
  cases left with
  | zero => rfl
  | succ left =>
    dsimp only
    rw [if_pos hlate]
    rfl

theorem waitFrom_goesOn (h : GoesOn f i) : waitFrom phase f start (left + 1) i =
    let rest := waitFrom phase f start left (i + 1)
    { rest with calls := (start + polled f.latency i + pollInterval, statusRead) :: rest.calls } := by
  obtain ⟨values, hi, hs, hlimit⟩ := h
  rw [waitFrom, pollUntilStopped.eq_def, play_pollOnce_ok (f := f.drop i) (by simpa using hi)]
  simp only [Feed.latency_drop, Nat.zero_add, answered, Feed.drop_drop, Nat.add_sub_cancel_left]
  rw [Stands] at hs
  rw [if_neg hs, if_neg (Nat.not_lt.mpr hlimit)]
  rfl

/-! ### All questions -/

/-- What happens with the first answer with which the wait does not go on. -/
theorem waitFrom_ends (phase : String) (start left : Nat) (h : ¬ GoesOn f i) :
    (waitFrom phase f start left i).calls =
        [(start + polled f.latency i + pollInterval, statusRead)] ∧
      WaitEnds phase f start i (waitFrom phase f start left i).outcome
        (waitFrom phase f start left i).finish := by
  cases hi : f.answer i with
  | error e =>
    rw [waitFrom_error hi]
    exact ⟨rfl, .failed hi⟩
  | ok values =>
    by_cases hs : Stands values
    · obtain ⟨hcalls, houtcome, hfinish⟩ := waitFrom_stands phase start left hi hs
      rw [houtcome, hfinish]
      exact ⟨hcalls, .stopped hi hs⟩
    · have hlate : travelLimit < polled f.latency (i + 1) :=
        Nat.lt_of_not_le fun hle => h ⟨values, hi, hs, hle⟩
      rw [waitFrom_late hi hs hlate]
      exact ⟨rfl, .late hi hs hlate⟩

theorem waitFrom_skip (hn : n ≤ left) (hgoes : ∀ i < n, GoesOn f i) :
    waitFrom phase f start left 0 =
      let last := waitFrom phase f start (left - n) n
      { last with calls := questions f.latency start n ++ last.calls } := by
  induction n with
  | zero => rfl
  | succ n ih =>
    have hleft : left - n = left - (n + 1) + 1 := by omega
    rw [ih (by omega) fun i hi => hgoes i (by omega), hleft, waitFrom_goesOn (hgoes n (by omega))]
    simp [questions, List.range_succ]

/-- Every wait ends, as the time for a travel is over after so many intervals. -/
theorem exists_last (f : Feed) : ∃ n ≤ pollLimit - 1, (∀ i < n, GoesOn f i) ∧ ¬ GoesOn f n := by
  have hover : ¬ GoesOn f (pollLimit - 1) := by
    rintro ⟨values, -, -, hlimit⟩
    have hle := le_polled f.latency (pollLimit - 1 + 1)
    have hlate : travelLimit < (pollLimit - 1 + 1) * pollInterval := by decide
    omega
  classical
  have hex : ∃ n, ¬ GoesOn f n := ⟨_, hover⟩
  exact ⟨Nat.find hex, Nat.find_min' hex hover, fun i hi => not_not.mp (Nat.find_min hex hi),
    Nat.find_spec hex⟩

theorem play_awaitStop (phase : String) (f : Feed) (now : Nat) : ∃ n ≤ pollLimit - 1,
    (∀ i < n, GoesOn f i) ∧ ((awaitStop phase).play f now).calls = questions f.latency now (n + 1) ∧
      WaitEnds phase f now n ((awaitStop phase).play f now).outcome
        ((awaitStop phase).play f now).finish := by
  obtain ⟨n, hn, hgoes, hlast⟩ := exists_last f
  have hrun : (awaitStop phase).play f now = waitFrom phase f now (pollLimit - 1) 0 := rfl
  obtain ⟨hcalls, hends⟩ := waitFrom_ends phase now (pollLimit - 1 - n) hlast
  rw [hrun, waitFrom_skip hn hgoes]
  refine ⟨n, hn, hgoes, ?_, hends⟩
  dsimp only
  rw [hcalls]
  simp [questions, List.range_succ]

/-- The last answer comes at most one question past the limit. -/
theorem polled_le (hgoes : ∀ i < n, GoesOn f i) :
    polled f.latency (n + 1) ≤ travelLimit + pollInterval + f.latency n := by
  have hbefore : polled f.latency n ≤ travelLimit := by
    cases n with
    | zero => exact Nat.zero_le _
    | succ n =>
      obtain ⟨values, -, -, hlimit⟩ := hgoes n (Nat.lt_succ_self n)
      exact hlimit
  rw [polled_succ]
  omega

/-! ### A whole wait -/

/-- A device that answers every question, if only with nothing. -/
def answering (answers : Nat → Entries) (latency : Nat → Nat) : Feed :=
  ⟨fun i => .ok (answers i), latency⟩

variable {answers : Nat → Entries} {latency : Nat → Nat} {now : Nat} {run : Recording Unit}

/-- How a wait goes whose last answer is the `n`-th, counted from zero. -/
structure WaitsFor (phase : String) (answers : Nat → Entries) (latency : Nat → Nat) (now : Nat)
    (run : Recording Unit) (n : Nat) : Prop where
  calls : run.calls = questions latency now (n + 1)
  before : ∀ i < n, ¬ Stands (answers i) ∧ polled latency (i + 1) ≤ travelLimit
  ends : Stands (answers n) ∧ run.outcome = .ok () ∧
      run.finish = now + polled latency (n + 1) + settleTime ∨
    ¬ Stands (answers n) ∧ travelLimit < polled latency (n + 1) ∧
      polled latency (n + 1) ≤ travelLimit + pollInterval + latency n ∧
      run.outcome = .error (.motorRunning phase (polled latency (n + 1))
        ((answers n).get operationalStatus)) ∧
      run.finish = now + polled latency (n + 1)

theorem exists_waitsFor (phase : String) (answers : Nat → Entries) (latency : Nat → Nat)
    (now : Nat) : ∃ n ≤ 150, WaitsFor phase answers latency now
      ((awaitStop phase).play (answering answers latency) now) n := by
  obtain ⟨n, hn, hgoes, hcalls, hends⟩ := play_awaitStop phase (answering answers latency) now
  have hlast := polled_le hgoes
  have hbefore : ∀ i < n, ¬ Stands (answers i) ∧ polled latency (i + 1) ≤ travelLimit := by
    intro i hi
    obtain ⟨values, hvalues, hs, hlimit⟩ := hgoes i hi
    cases hvalues
    exact ⟨hs, hlimit⟩
  refine ⟨n, hn, hcalls, hbefore, ?_⟩
  generalize (awaitStop phase).play (answering answers latency) now = run at hends
  obtain ⟨calls, lines, outcome, finish⟩ := run
  dsimp only at hends ⊢
  cases hends with
  | stopped h hs =>
    cases h
    exact .inl ⟨hs, rfl, rfl⟩
  | late h hs hlate =>
    cases h
    exact .inr ⟨hs, hlate, hlast, rfl, rfl⟩
  | failed h => cases h

namespace WaitsFor

theorem returns_iff (hw : WaitsFor phase answers latency now run n) : run.outcome = .ok () ↔
    ∃ i, Stands (answers i) ∧ ∀ j < i, polled latency (j + 1) ≤ travelLimit := by
  constructor
  · intro hok
    rcases hw.ends with ⟨hs, -, -⟩ | ⟨-, -, -, herror, -⟩
    · exact ⟨n, hs, fun j hj => (hw.before j hj).2⟩
    · cases hok.symm.trans herror
  · rintro ⟨i, hi, hbefore⟩
    rcases hw.ends with ⟨-, hok, -⟩ | ⟨hs, hlate, -⟩
    · exact hok
    · rcases Nat.lt_trichotomy i n with hlt | rfl | hlt
      · exact absurd hi (hw.before i hlt).1
      · exact absurd hi hs
      · exact absurd (hbefore n hlt) (Nat.not_le.mpr hlate)

theorem raises_iff (hw : WaitsFor phase answers latency now run n) (e : Fault) :
    run.outcome = .error e ↔ ∃ i, ¬ Stands (answers i) ∧ travelLimit < polled latency (i + 1) ∧
      (∀ j < i, ¬ Stands (answers j) ∧ polled latency (j + 1) ≤ travelLimit) ∧
      e = .motorRunning phase (polled latency (i + 1)) ((answers i).get operationalStatus) := by
  constructor
  · intro herror
    rcases hw.ends with ⟨-, hok, -⟩ | ⟨hs, hlate, -, herror', -⟩
    · cases hok.symm.trans herror
    · cases herror.symm.trans herror'
      exact ⟨n, hs, hlate, hw.before, rfl⟩
  · rintro ⟨i, hs, hlate, hbefore, rfl⟩
    rcases Nat.lt_trichotomy i n with hlt | rfl | hlt
    · exact absurd (hw.before i hlt).2 (Nat.not_le.mpr hlate)
    · rcases hw.ends with ⟨hstands, -⟩ | ⟨-, -, -, herror, -⟩
      · exact absurd hstands hs
      · exact herror
    · obtain ⟨hs', hle⟩ := hbefore n hlt
      rcases hw.ends with ⟨hstands, -⟩ | ⟨-, hlate', -⟩
      · exact absurd hstands hs'
      · exact absurd hle (Nat.not_le.mpr hlate')

end WaitsFor

theorem finish_awaitStop_le (phase : String) (f : Feed) (now limit : Nat)
    (hf : ∀ i, f.latency i ≤ limit) : ((awaitStop phase).play f now).finish ≤
      now + (travelLimit + pollInterval + limit + settleTime) := by
  obtain ⟨n, -, hgoes, -, hends⟩ := play_awaitStop phase f now
  have hlast := polled_le hgoes
  have hn := hf n
  generalize (awaitStop phase).play f now = run at hends
  obtain ⟨calls, lines, outcome, finish⟩ := run
  dsimp only at hends ⊢
  cases hends <;> omega

/-- The wait until the motor stands still ends, with the first answer that tells so or comes too late,
whatever the answers are and however long they take; on a hub it ends in time. -/
theorem wait_exact (phase : String) :
    (∀ answers latency now, let run := (awaitStop phase).play (answering answers latency) now
      (∃ n ≤ 150, WaitsFor phase answers latency now run n) ∧
      (run.outcome = .ok () ↔
        ∃ i, Stands (answers i) ∧ ∀ j < i, polled latency (j + 1) ≤ travelLimit) ∧
      ∀ e, run.outcome = .error e ↔ ∃ i, ¬ Stands (answers i) ∧
        travelLimit < polled latency (i + 1) ∧
        (∀ j < i, ¬ Stands (answers j) ∧ polled latency (j + 1) ≤ travelLimit) ∧
        e = .motorRunning phase (polled latency (i + 1)) ((answers i).get operationalStatus)) ∧
    ∀ a (h : Hub), h.limit = Hub.defaultLimit → (∀ q, (h.exchange a q).2.now ≤ h.now + 10000) ∧
      ((awaitStop phase).perform a h).2.now ≤ h.now + 314000 := by
  constructor
  · intro answers latency now
    obtain ⟨n, hn, hw⟩ := exists_waitsFor phase answers latency now
    exact ⟨⟨n, hn, hw⟩, hw.returns_iff, hw.raises_iff⟩
  · intro a h hlimit
    constructor
    · intro q
      obtain ⟨latency, hle, hnow, -⟩ := h.exchange_time a q
      rw [hnow]
      exact Nat.add_le_add_left (hle.trans_eq hlimit) h.now
    · obtain ⟨f, hf, -, hfinish⟩ := h.exists_feed a (awaitStop phase)
      rw [← hfinish]
      exact finish_awaitStop_le phase f h.now Hub.defaultLimit fun i => hlimit ▸ hf i

/-- A motor that tells nothing twice and then stands still. -/
def hesitant (i : Nat) : Entries := if i < 2 then [] else [(operationalStatus, .int 0)]

theorem wait_exact_hesitant :
    ((awaitStop "prime").play (answering hesitant fun _ => 500) 0).outcome = .ok () ∧
      ∀ a, ((awaitStop "prime").perform a ⟨0, Hub.defaultLimit, [], [], []⟩).2.now ≤ 314000 := by
  obtain ⟨hplayed, hperformed⟩ := wait_exact "prime"
  refine ⟨(hplayed hesitant (fun _ => 500) 0).2.1.mpr ⟨2, rfl, by decide⟩, fun a => ?_⟩
  exact (hperformed a ⟨0, Hub.defaultLimit, [], [], []⟩ rfl).2

end Commissioning.Covering

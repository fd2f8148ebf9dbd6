import Commissioning.Proofs.Device.Beside

/-!
A device as it looks from a procedure: it answers one request after the other, each after some time.
Pauses take exactly their time, so a feed fixes the whole run. A hub on which nothing else happens is
such a feed, and never takes longer for an answer than a call may take.

    feed   (answer 0, 3 ms)   (answer 1, 0 ms)   (answer 2, 10 s)  …
    run    ask ─3 ms─ pause ms ─ ask ─0 ms─ …
-/
namespace Commissioning

/-- The answers of a device, and how long each of them takes. -/
structure Feed where
  answer : Nat → Outcome Entries
  latency : Nat → Nat

namespace Feed

/-- What is left of a feed. -/
def drop (f : Feed) (n : Nat) : Feed := ⟨fun i => f.answer (i + n), fun i => f.latency (i + n)⟩

/-- A feed with one answer more. -/
def cons (answer : Outcome Entries) (latency : Nat) (f : Feed) : Feed where
  answer
    | 0 => answer
    | i + 1 => f.answer i
  latency
    | 0 => latency
    | i + 1 => f.latency i

@[simp] theorem answer_drop (f : Feed) (n i : Nat) : (f.drop n).answer i = f.answer (i + n) := rfl

@[simp] theorem latency_drop (f : Feed) (n i : Nat) : (f.drop n).latency i = f.latency (i + n) := rfl

theorem drop_drop (f : Feed) (m n : Nat) : (f.drop m).drop n = f.drop (m + n) := by
  simp [drop, Nat.add_assoc, Nat.add_comm n m]

end Feed

namespace Procedure
variable {α : Type}

/-- Runs a procedure on a feed. -/
def play (f : Feed) (now : Nat) : Procedure α → Recording α
  | .done a => ⟨[], [], .ok a, now⟩
  | .fail e => ⟨[], [], .error e, now⟩
  | .ask (.exchange q) next =>
    let rest := play (f.drop 1) (now + f.latency 0) (next (f.answer 0))
    { rest with calls := (now, q) :: rest.calls }
  | .ask (.pause ms) next => play f (now + ms) (next ())
  | .ask .clock next => play f now (next now)
  | .ask (.log lines) next =>
    let rest := play f now (next ())
    { rest with log := lines ++ rest.log }

end Procedure

namespace Hub
variable {α : Type}

theorem duration_le (h : Hub) (x : OpenCall) : h.duration x ≤ h.limit := by
  simp only [duration, Reaction.duration, Reaction.isLate, Bool.and_eq_true, decide_eq_true_eq]
  split <;> omega

/-- An answer takes no longer than a call may take. -/
theorem exchange_time (h : Hub) (a : Address) (q : Request) : ∃ latency ≤ h.limit,
    (h.exchange a q).2.now = h.now + latency ∧ (h.exchange a q).2.limit = h.limit := by
  have hbegin : Touches (some a) h (h.begin a q).2 := touches_begin h rfl q
  unfold exchange
  generalize h.begin a q = r at hbegin ⊢
  obtain ⟨outcome | x, g⟩ := r
  · exact ⟨0, Nat.zero_le _, hbegin.now, hbegin.limit⟩
  · have hfinish : Touches (some a) (g.wait (g.duration x)) _ :=
      touches_finish (g.wait (g.duration x)) rfl x
    refine ⟨g.duration x, hbegin.limit ▸ g.duration_le x, hfinish.now.trans ?_,
      hfinish.limit.trans hbegin.limit⟩
    exact congrArg (· + g.duration x) hbegin.now

/-- A hub on which nothing else happens is a feed. -/
theorem exists_feed (a : Address) (h : Hub) (p : Procedure α) : ∃ f : Feed,
    (∀ i, f.latency i ≤ h.limit) ∧ (p.play f h.now).outcome = (p.perform a h).1 ∧
      (p.play f h.now).finish = (p.perform a h).2.now := by
  induction p generalizing h with
  | done x => exact ⟨⟨fun _ => .ok [], fun _ => 0⟩, fun _ => Nat.zero_le _, rfl, rfl⟩
  | fail e => exact ⟨⟨fun _ => .ok [], fun _ => 0⟩, fun _ => Nat.zero_le _, rfl, rfl⟩
  | ask e next ih =>
    cases e with
    | exchange q =>
      obtain ⟨latency, hle, hnow, hlimit⟩ := h.exchange_time a q
      obtain ⟨f, hf, houtcome, hfinish⟩ := ih (h.exchange a q).1 (h.exchange a q).2
      rw [hnow] at houtcome hfinish
      refine ⟨f.cons (h.exchange a q).1 latency, ?_, houtcome, hfinish⟩
      rintro (_ | i)
      · exact hle
      · exact hlimit ▸ hf i
    | pause ms => exact ih () (h.wait ms)
    | clock => exact ih h.now h
    | log lines => exact ih () (h.write lines)

end Hub

end Commissioning

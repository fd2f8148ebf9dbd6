import Commissioning.Proofs.Exchange.Run

/-!
Runs judged exchange by exchange. Each exchange has to fit what was exchanged before it, so what is
judged holds wherever a run breaks off. A procedure is judged part by part: every part gets the
history that the parts before it have left, and leaves a longer one.

    h ──p──▶ h ++ t₁ ──f a──▶ h ++ t₁ ++ t₂
        every exchange of t₁    every exchange of t₂
        fits after h …          fits after h ++ t₁ …
-/
namespace Commissioning
variable {Fits : List Exchange → Exchange → Prop} {h : List Exchange}

/-- Each exchange fits the exchanges before it, which begin with `h`. -/
def Orderly (Fits : List Exchange → Exchange → Prop) : List Exchange → List Exchange → Prop
  | _, [] => True
  | h, x :: t => Fits h x ∧ Orderly Fits (h ++ [x]) t

theorem orderly_append {t₁ t₂ : List Exchange} : Orderly Fits h (t₁ ++ t₂) ↔
    Orderly Fits h t₁ ∧ Orderly Fits (h ++ t₁) t₂ := by
  induction t₁ generalizing h with
  | nil => simp [Orderly]
  | cons x t₁ ih => simp [Orderly, ih, and_assoc]

theorem Orderly.fits {before after : List Exchange} {x : Exchange}
    (ht : Orderly Fits h (before ++ x :: after)) : Fits (h ++ before) x :=
  (orderly_append.mp ht).2.1

namespace Procedure
variable {α β : Type} {now : Nat}

/-- However a procedure runs after the history `h`, its exchanges are orderly, and a result comes with
something that holds of the time and of the history then. -/
def Proceeds (Fits : List Exchange → Exchange → Prop) (p : Procedure α) (now : Nat)
    (h : List Exchange) (Q : α → Nat → List Exchange → Prop) : Prop :=
  ∀ t r finish, Runs p now t r finish →
    Orderly Fits h t ∧ ∀ a, r = .ok a → Q a finish (h ++ t)

variable {Q : α → Nat → List Exchange → Prop}

theorem proceeds_pure {a : α} (hq : Q a now h) : Proceeds Fits (pure a) now h Q := by
  rintro t r finish ⟨rfl, rfl, rfl⟩
  refine ⟨trivial, ?_⟩
  rintro _ ⟨⟩
  rwa [List.append_nil]

theorem proceeds_fail {e : Fault} : Proceeds Fits (.fail e : Procedure α) now h Q := by
  rintro t r finish ⟨rfl, rfl, rfl⟩
  exact ⟨trivial, nofun⟩

theorem Proceeds.mono {p : Procedure α} {Q' : α → Nat → List Exchange → Prop}
    (hp : Proceeds Fits p now h Q) (hq : ∀ a later h', Q a later h' → Q' a later h') :
    Proceeds Fits p now h Q' := by
  intro t r finish hr
  obtain ⟨ht, ha⟩ := hp t r finish hr
  exact ⟨ht, fun a hok => hq a finish (h ++ t) (ha a hok)⟩

theorem proceeds_bind {p : Procedure α} {f : α → Procedure β} {Q : β → Nat → List Exchange → Prop}
    (hp : Proceeds Fits p now h fun a later h' => Proceeds Fits (f a) later h' Q) :
    Proceeds Fits (p >>= f) now h Q := by
  intro t r finish hr
  rcases runs_bind.mp hr with ⟨a, t₁, t₂, mid, h₁, h₂, rfl⟩ | ⟨stop, h₁, rfl⟩
  · obtain ⟨ht₁, hok⟩ := hp t₁ _ mid h₁
    obtain ⟨ht₂, hq⟩ := hok a rfl t₂ r finish h₂
    rw [List.append_assoc] at hq
    exact ⟨orderly_append.mpr ⟨ht₁, ht₂⟩, hq⟩
  · exact ⟨(hp t _ finish h₁).1, nofun⟩

theorem proceeds_ofOutcome {o : Outcome α} (hq : ∀ a, o = .ok a → Q a now h) :
    Proceeds Fits (.ofOutcome o) now h Q := by
  cases o with
  | ok a => exact proceeds_pure (hq a rfl)
  | error e => exact proceeds_fail

theorem proceeds_pause {ms : Nat} {Q : Unit → Nat → List Exchange → Prop}
    (hq : ∀ later, now + ms ≤ later → Q () later h) : Proceeds Fits (pause ms) now h Q := by
  intro t r finish hr
  obtain ⟨rfl, hend⟩ := runs_pause.mp hr
  refine ⟨trivial, ?_⟩
  rintro _ rfl
  rcases hend with ⟨-, ⟨⟩⟩ | ⟨hl, -⟩
  rw [List.append_nil]
  exact hq finish hl

theorem proceeds_clock {Q : Nat → Nat → List Exchange → Prop} (hq : Q now now h) :
    Proceeds Fits clock now h Q := by
  rintro t r finish ⟨rfl, rfl, rfl⟩
  refine ⟨trivial, ?_⟩
  rintro _ ⟨⟩
  rwa [List.append_nil]

theorem proceeds_log {lines : Log} {Q : Unit → Nat → List Exchange → Prop} (hq : Q () now h) :
    Proceeds Fits (log lines) now h Q := by
  rintro t r finish ⟨rfl, rfl, rfl⟩
  refine ⟨trivial, ?_⟩
  rintro _ ⟨⟩
  rwa [List.append_nil]

theorem proceeds_note {level : Level} {message : String} {entries : Entries}
    {Q : Unit → Nat → List Exchange → Prop} (hq : Q () now h) :
    Proceeds Fits (note level message entries) now h Q := proceeds_log hq

/-- A request has to fit as it is sent, whatever becomes of it. -/
theorem proceeds_send {q : Request} {Q : Entries → Nat → List Exchange → Prop}
    (hfits : ∀ reply, Fits h ⟨q, now, reply⟩)
    (hq : ∀ later values, now ≤ later → Q values later (h ++ [⟨q, now, some (later, .ok values)⟩])) :
    Proceeds Fits (send q) now h Q := by
  intro t r finish hr
  obtain ⟨hl, ⟨rfl, rfl⟩ | ⟨answer, rfl, rfl⟩⟩ := runs_send.mp hr
  · exact ⟨⟨hfits _, trivial⟩, nofun⟩
  · refine ⟨⟨hfits _, trivial⟩, fun values hvalues => ?_⟩
    cases answer with
    | error e => cases hvalues
    | ok found =>
      cases hvalues
      exact hq finish values hl

theorem proceeds_request {q : Request} {Q : Unit → Nat → List Exchange → Prop}
    (hfits : ∀ reply, Fits h ⟨q, now, reply⟩)
    (hq : ∀ later values, now ≤ later → Q () later (h ++ [⟨q, now, some (later, .ok values)⟩])) :
    Proceeds Fits (do let _ ← send q) now h Q :=
  proceeds_bind (proceeds_send hfits fun later values hl => proceeds_pure (hq later values hl))

end Procedure

end Commissioning

import Commissioning.Proofs.Exchange.Run

/-!
Where a procedure may turn its request down. A rejection comes from a check of the request; what goes
wrong on the way to the device, or in its answers, is no rejection. A procedure that checks first
turns its request down before it asks for anything, or not at all:

    clock ── check ──┬─ bad ──▶ rejection
                     └─ good ─▶ request ── answer ──▶ … ──▶ result, or a fault that is no rejection
-/
namespace Commissioning
variable {α β : Type}

/-- A request is turned down: because of its data, its device, or an operation that is under way. -/
def Fault.IsRejection (e : Fault) : Prop :=
  e.category ∈ [.form, .validation, .configuration, .request]

/-- An outcome that is no rejection. -/
def Accepted (r : Outcome α) : Prop := ∀ e, r = .error e → ¬ e.IsRejection

theorem accepted_ok (a : α) : Accepted (.ok a : Outcome α) := nofun

theorem accepted_error {e : Fault} : Accepted (.error e : Outcome α) ↔ ¬ e.IsRejection := by
  constructor
  · exact fun h => h e rfl
  · rintro h _ ⟨⟩
    exact h

theorem not_isRejection_mismatch (e : Mismatch) : ¬ (Fault.mismatch e).IsRejection := by
  cases e <;> simp [Fault.IsRejection, Fault.category, Fault.mismatchCategory]

theorem not_isRejection_link (e : LinkError) : ¬ (Fault.link e).IsRejection := by
  simp [Fault.IsRejection, Fault.category]

theorem accepted_ofMismatch (r : Except Mismatch α) : Accepted (ofMismatch r) := by
  cases r with
  | ok a => exact accepted_ok a
  | error e => exact accepted_error.mpr (not_isRejection_mismatch e)

theorem accepted_bind {r : Outcome α} {f : α → Outcome β} (hr : Accepted r)
    (hf : ∀ a, Accepted (f a)) : Accepted (r >>= f) := by
  cases r with
  | ok a => exact hf a
  | error e => exact accepted_error.mpr (accepted_error.mp hr)

namespace Procedure
variable {p : Procedure α} {f : α → Procedure β}

/-- A procedure never turns its request down, if no answer does. -/
def Accepts : Procedure α → Prop
  | .done _ => True
  | .fail e => ¬ e.IsRejection
  | .ask (.exchange _) next => ∀ answer, Accepted answer → Accepts (next answer)
  | .ask (.pause _) next => Accepts (next ())
  | .ask .clock next => ∀ n, Accepts (next n)
  | .ask (.log _) next => Accepts (next ())

/-- A procedure turns its request down before it asks for anything and before it waits, or never. -/
def ChecksFirst : Procedure α → Prop
  | .done _ | .fail _ => True
  | .ask (.exchange _) next => ∀ answer, Accepted answer → Accepts (next answer)
  | .ask (.pause _) next => Accepts (next ())
  | .ask .clock next => ∀ n, ChecksFirst (next n)
  | .ask (.log _) next => ChecksFirst (next ())

/-! ### Procedures that check first -/

theorem Accepts.checksFirst (hp : Accepts p) : ChecksFirst p := by
  induction p with
  | done a => trivial
  | fail e => trivial
  | ask e next ih =>
    cases e with
    | exchange q => exact hp
    | pause ms => exact hp
    | clock => exact fun n => ih n (hp n)
    | log lines => exact ih () hp

theorem checksFirst_ofOutcome_bind {r : Outcome α} (hf : ∀ a, ChecksFirst (f a)) :
    ChecksFirst ((.ofOutcome r : Procedure α) >>= f) := by
  cases r with
  | ok a => exact hf a
  | error e => trivial

theorem checksFirst_ofLogged_bind {l : Logged α} (hf : ∀ a, ChecksFirst (f a)) :
    ChecksFirst (ofLogged l >>= f) := by
  unfold ofLogged
  split
  · exact checksFirst_ofOutcome_bind hf
  · exact checksFirst_ofOutcome_bind hf

end Procedure

end Commissioning

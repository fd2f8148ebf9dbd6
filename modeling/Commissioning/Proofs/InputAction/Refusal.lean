import Commissioning.Proofs.InputAction.CoverEndpoint
import Commissioning.Proofs.Value.Showable

/-!
What a refusal of templates tells. Its message spells the position of the template out, and beside
that shows values of the template, or a row. The numbers of a row are small, because a cursor never
gets more than one past an octet before a row is refused:

    cursor ≤ 256 ── place ──▶ row ≤ 260 ──┬── fits ──▶ cursor ≤ 256
                                          └── refused, and shown

So a refusal cannot be shown only if a value of its template cannot.
-/
namespace Commissioning

namespace TemplateError

/-- The position that an error tells. -/
def index? : TemplateError → Option Nat
  | .unsupportedModel .. => none
  | .unknownType _ index _ | .fieldRange _ _ index _ _ | .noInputPair _ index _
  | .missingScene _ index | .rowRange _ index _ => some index

/-- An error tells a position, and shows values of some fields. -/
structure Tells (index : Nat) (fields : Entries) (e : TemplateError) : Prop where
  index : e.index? = some index
  showable : (Value.dict fields).isShowable → e.isShowable

end TemplateError

/-- If a computation fails, then with an error of a kind. -/
def Refuses {α : Type} (P : TemplateError → Prop) (r : Except TemplateError α) : Prop :=
  ∀ e, r = .error e → P e

namespace Refuses
variable {α β : Type} {P : TemplateError → Prop}

theorem ok (a : α) : Refuses P (.ok a) := nofun

theorem error {e : TemplateError} (h : P e) : Refuses P (.error e : Except TemplateError α) := by
  rintro _ ⟨⟩
  exact h

theorem bind {x : Except TemplateError α} {f : α → Except TemplateError β} (hx : Refuses P x)
    (hf : ∀ a, x = .ok a → Refuses P (f a)) : Refuses P (x >>= f) := by
  intro e he
  rcases bind_eq_error.mp he with he | ⟨a, ha, he⟩
  · exact hx e he
  · exact hf a ha e he

theorem map {x : Except TemplateError α} {f : α → β} (hx : Refuses P x) : Refuses P (x.map f) := by
  cases x with
  | ok a => exact ok _
  | error e => exact error (hx e rfl)

end Refuses

/-! ### Fields -/

namespace Template
variable {family : Family} {index : Nat} {fields : Entries} {key : String} {maximum : Nat}

end Template

/-! ### Rows -/

namespace Template
variable {model : Model} {fields : Entries} {c : Cursor Numeral} {t : Template}

end Template

section
variable {model : Model} {index : Nat} {c c' : Cursor Numeral} {fields : Entries}

end

end Commissioning

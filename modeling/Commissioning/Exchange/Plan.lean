import Commissioning.Fault.Basic

/-!
Plans: what a computation asks of its surroundings, one question after the other, as a finite tree.
A node asks a question and has one subtree for each answer; a leaf is a result or a fault. Whoever
walks the tree gives the answers, so one plan serves every device, every clock and every failure.

        ask e ── answer ──▶ ask e' ── answer ──▶ done a
          └───── answer ──▶ fail fault
-/
namespace Commissioning

/-- A plan that asks questions `e`, each answered by an `Answer e`. -/
inductive Plan {E : Type} (Answer : E → Type) (α : Type) where
  | done (a : α)
  | fail (fault : Fault)
  | ask (e : E) (next : Answer e → Plan Answer α)

namespace Plan
variable {E : Type} {Answer : E → Type} {α β : Type}

/-- Goes on with the result; a fault ends the whole plan. -/
def bind : Plan Answer α → (α → Plan Answer β) → Plan Answer β
  | done a, f => f a
  | fail fault, _ => fail fault
  | ask e next, f => ask e fun answer => (next answer).bind f

instance : Monad (Plan Answer) where
  pure := done
  bind := bind

/-- Makes an outcome the end of a plan. -/
def ofOutcome : Outcome α → Plan Answer α
  | .ok a => done a
  | .error fault => fail fault

/-- A plan that ends with an outcome in place of a fault. -/
def attempt : Plan Answer α → Plan Answer (Outcome α)
  | done a => done (.ok a)
  | fail fault => done (.error fault)
  | ask e next => ask e fun answer => (next answer).attempt

end Plan

end Commissioning

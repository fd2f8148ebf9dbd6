import Commissioning.Fault.Basic
import Commissioning.Log

/-!
Computations that write log lines and may fail. The lines written before a failure stay written.
-/
namespace Commissioning

/-- A result or a fault, and the lines written on the way to it. -/
structure Logged (α : Type) where
  log : Log
  outcome : Outcome α

namespace Logged

instance : Monad Logged where
  pure a := ⟨[], .ok a⟩
  bind x f := match x.outcome with
    | .ok a => ⟨x.log ++ (f a).log, (f a).outcome⟩
    | .error e => ⟨x.log, .error e⟩

/-- Fails. -/
def fail (e : Fault) : Logged α := ⟨[], .error e⟩

/-- A computation that writes nothing. -/
def ofOutcome (r : Outcome α) : Logged α := ⟨[], r⟩

/-- Writes lines. -/
def write (log : Log) : Logged Unit := ⟨log, .ok ()⟩

end Logged

end Commissioning

import Commissioning.Proofs.Service.Regular

/-!
Where the services turn a request down. A covering has been checked before its procedure starts, and
a procedure that only reads has nothing to check; the other two check first:

    covering, reads    request ── … ──▶ no rejection
    setup, dimmer      check ──┬─ bad ──▶ rejection
                               └─ good ─▶ request ── … ──▶ no rejection
-/
namespace Commissioning
open Procedure

theorem DeviceSetup.checksFirst_configure (model build : Value) (payloads : Payloads)
    (verbose : Bool) : ChecksFirst (configure model build payloads verbose) := by
  rw [configure_eq]
  intro start
  refine checksFirst_ofOutcome_bind fun _ => checksFirst_ofLogged_bind fun compiled => ?_
  rw [← Nat.zero_add start]
  exact (vetted_deliver (fun _ _ _ => trivial) _ _ _ _ _ start).accepts.checksFirst

theorem Dimmer.checksFirst_configure (phase minimum : Value) (verbose : Bool) :
    ChecksFirst (configure phase minimum verbose) :=
  checksFirst_ofOutcome_bind fun s =>
    (vetted_apply s verbose).accepts.checksFirst

namespace Purpose

theorem checksFirst_procedure (p : Purpose) (verbose : Bool) :
    ChecksFirst (p.procedure verbose) := by
  cases p with
  | configureCovering o => exact (Covering.vetted_configure o verbose).accepts.checksFirst
  | readCovering => exact Covering.vetted_readReport.accepts.checksFirst
  | configureDeviceSetup model payloads => exact DeviceSetup.checksFirst_configure _ _ _ _
  | readDeviceSetup => exact DeviceSetup.vetted_read.accepts.checksFirst
  | configureDimmer phase minimum => exact Dimmer.checksFirst_configure _ _ _
  | readDimmer => exact Dimmer.vetted_read.accepts.checksFirst

/-- Where the end of a job is told in an event, nothing is turned down any more. -/
theorem accepts_or_untold (p : Purpose) (verbose : Bool) : Accepts (p.procedure verbose) ∨
    ∀ address device began finish outcome,
      (Job.mk p address device).event? began finish outcome = none := by
  cases p with
  | configureCovering o => exact .inl (Covering.vetted_configure o verbose).accepts
  | readCovering => exact .inl Covering.vetted_readReport.accepts
  | configureDeviceSetup model payloads => exact .inr fun _ _ _ _ _ => rfl
  | readDeviceSetup => exact .inl DeviceSetup.vetted_read.accepts
  | configureDimmer phase minimum => exact .inr fun _ _ _ _ _ => rfl
  | readDimmer => exact .inl Dimmer.vetted_read.accepts

end Purpose

end Commissioning

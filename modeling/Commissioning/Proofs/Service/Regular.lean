import Commissioning.Proofs.Covering.Exchanges
import Commissioning.Proofs.DeviceSetup.Requests
import Commissioning.Proofs.Exchange.Regular
import Commissioning.Proofs.Firmware.Version
import Commissioning.Service.Job

/-!
The procedures behind the services are regular. A covering has been checked before its procedure
starts, so nothing in it is a rejection; neither is anything in a procedure that only reads. The other
two check their requests first, before they ask their device for anything. Only the question for the
firmware may fail without an end to its procedure:

    check ──┬─ bad ──▶ rejection
            └─ good ─▶ [build ──▶] request ── values ──▶ … ──▶ result
                          └─ failure of the transport: no build
-/
namespace Commissioning
open Procedure

variable {Absorbs : Request → Fault → Prop} {b b' : Nat}

namespace Procedure
variable {α : Type}

/-- Regular, and past the checks of the request. -/
abbrev Vetted (Absorbs : Request → Fault → Prop) (b b' : Nat) (p p' : Procedure α) : Prop :=
  Regular (¬ ·.IsRejection) Absorbs b b' p p'

theorem Regular.steady {p p' : Procedure α} (h : Vetted Absorbs b b' p p') :
    Steady Absorbs b b' p p' := h.mono fun _ _ => trivial

theorem vetted_ofMismatch (r : Except Mismatch α) :
    Vetted Absorbs b b' (ofMismatch r) (ofMismatch r) :=
  regular_ofOutcome (accepted_ofMismatch r)

end Procedure

theorem accepted_logged_bind {α β : Type} {l : Logged α} {f : α → Logged β}
    (hl : Accepted l.outcome) (hf : ∀ a, Accepted (f a).outcome) : Accepted (l >>= f).outcome := by
  rw [Logged.outcome_bind]
  exact accepted_bind hl hf

/-! ### Coverings -/

namespace Covering

theorem vetted_pollOnce (n : Nat) : Vetted Absorbs b b' (pollOnce (b + n)) (pollOnce (b' + n)) := by
  refine regular_bind (regular_pause _) fun _ => regular_bind (regular_send _) fun _ => ?_
  refine regular_clock_bind fun m => ?_
  rw [Nat.add_sub_add_left, Nat.add_sub_add_left]
  exact regular_pure _

theorem vetted_pollUntilStopped (text : String) (n polls left : Nat) :
    Vetted Absorbs b b' (pollUntilStopped text (b + n) polls left)
      (pollUntilStopped text (b' + n) polls left) := by
  have hrunning (elapsed : Nat) (status : Value) :
      ¬ (Fault.motorRunning text elapsed status).IsRejection := by
    simp [Fault.IsRejection, Fault.category]
  induction left generalizing polls with
  | zero =>
    refine regular_bind (vetted_pollOnce n) fun told => ?_
    obtain ⟨status, elapsed⟩ := told
    dsimp only
    split
    · exact regular_bind (regular_log _) fun _ => regular_pause _
    · exact .fail _ (hrunning elapsed status)
  | succ left ih =>
    refine regular_bind (vetted_pollOnce n) fun told => ?_
    obtain ⟨status, elapsed⟩ := told
    dsimp only
    split
    · exact regular_bind (regular_log _) fun _ => regular_pause _
    · split
      · exact .fail _ (hrunning elapsed status)
      · exact ih (polls + 1)

theorem vetted_awaitStop (text : String) : Vetted Absorbs b b' (awaitStop text) (awaitStop text) :=
  regular_clock_bind fun n => vetted_pollUntilStopped text n 0 _

theorem vetted_drive (name : String) : Vetted Absorbs b b' (drive name) (drive name) :=
  regular_request _

/-- That something cannot be shown turns no request down. -/
theorem vetted_announce (o : Options) : Vetted Absorbs b b' (announce o) (announce o) := by
  rcases announce_cases o with ho | ⟨ho, -⟩
  · rw [ho]
    exact regular_log _
  · rw [ho]
    exact .fail _ (not_isRejection_mismatch _)

theorem vetted_settle (level : Level) :
    Vetted Absorbs b b' (Covering.settle level) (Covering.settle level) := by
  rw [settle_eq]
  refine regular_bind (regular_send _) fun values => regular_bind (vetted_ofMismatch _) fun mode => ?_
  refine regular_bind (regular_note _ _ _) fun _ => regular_bind ?_ fun _ => regular_pure _
  unfold clearLeftover
  split
  · exact regular_bind (regular_request _) fun _ => regular_pause _
  · exact regular_pure _

theorem vetted_writeBase (level : Level) (mode : Int) (base : Entries) :
    Vetted Absorbs b b' (writeBase level mode base) (writeBase level mode base) := by
  induction base generalizing mode with
  | nil => exact regular_pure _
  | cons e base ih =>
    obtain ⟨key, v⟩ := e
    rw [writeBase_cons]
    refine regular_bind (vetted_ofMismatch _) fun after => regular_bind (regular_note _ _ _) fun _ => ?_
    exact regular_bind (regular_request _) fun _ => regular_bind (regular_pause _) fun _ => ih after

theorem vetted_writeOverrides (level : Level) (overrides : Entries) :
    Vetted Absorbs b b' (writeOverrides level overrides) (writeOverrides level overrides) := by
  induction overrides with
  | nil => exact regular_pure _
  | cons e overrides ih =>
    obtain ⟨key, v⟩ := e
    exact regular_bind (regular_note _ _ _) fun _ => regular_bind (regular_request _) fun _ => ih

theorem vetted_phase (o : Options) (level : Level) (mode : Int) (p : Phase) :
    Vetted Absorbs b b' (p.procedure o level mode) (p.procedure o level mode) := by
  cases p with
  | settle => exact regular_bind (vetted_announce o) fun _ => vetted_settle level
  | base => exact vetted_writeBase level mode o.base
  | prime =>
    refine regular_bind (regular_bind (regular_note _ _ _) fun _ => ?_) fun _ => regular_pure _
    exact regular_bind (vetted_drive _) fun _ => vetted_awaitStop _
  | reset =>
    refine regular_bind (regular_bind (regular_note _ _ _) fun _ => ?_) fun _ => regular_pure _
    exact regular_bind (regular_request _) fun _ => regular_pause _
  | enable =>
    refine regular_bind (regular_bind (regular_note _ _ _) fun _ => ?_) fun _ => regular_pure _
    exact regular_bind (regular_request _) fun _ => regular_pause _
  | learnLower =>
    refine regular_bind (regular_bind (regular_note _ _ _) fun _ => ?_) fun _ => regular_pure _
    refine regular_bind (vetted_drive _) fun _ => regular_bind (regular_pause _) fun _ => ?_
    refine regular_bind (vetted_drive _) fun _ => regular_bind (regular_pause _) fun _ => ?_
    exact regular_bind (vetted_drive _) fun _ => vetted_awaitStop _
  | learnRange =>
    refine regular_bind (regular_bind (regular_note _ _ _) fun _ => ?_) fun _ => regular_pure _
    refine regular_bind (vetted_drive _) fun _ => regular_bind (vetted_awaitStop _) fun _ => ?_
    exact regular_bind (vetted_drive _) fun _ => vetted_awaitStop _
  | overrides => exact regular_bind (vetted_writeOverrides level _) fun _ => regular_pure _
  | finalize =>
    refine regular_bind (regular_bind (regular_pause _) fun _ => ?_) fun _ => regular_pure _
    refine regular_bind (regular_note _ _ _) fun _ => ?_
    exact regular_bind (regular_request _) fun _ => regular_pause _

theorem vetted_performPhases (o : Options) (level : Level) (ps : List Phase) (mode : Int) :
    Vetted Absorbs b b' (performPhases o level ps mode) (performPhases o level ps mode) := by
  induction ps generalizing mode with
  | nil => exact regular_pure mode
  | cons p ps ih => exact regular_bind (vetted_phase o level mode p) ih

theorem vetted_readReport : Vetted Absorbs b b' readReport readReport := by
  refine regular_bind (regular_send _) fun _ => regular_bind (regular_send _) fun _ => ?_
  exact regular_bind (regular_send _) fun _ => regular_pure _

theorem vetted_conclude (o : Options) (n : Nat) :
    Vetted Absorbs b b' (conclude o (b + n)) (conclude o (b' + n)) := by
  refine regular_bind vetted_readReport fun report => regular_clock_bind fun m => ?_
  rw [Nat.add_sub_add_left, Nat.add_sub_add_left]
  exact regular_bind (regular_log _) fun _ => regular_pure _

theorem vetted_configure (o : Options) (verbose : Bool) :
    Vetted Absorbs b b' (configure o verbose) (configure o verbose) := by
  rw [configure_eq]
  refine regular_clock_bind fun n => ?_
  exact regular_bind (vetted_performPhases o _ _ 0) fun _ => vetted_conclude o n

theorem steady_configureRaw (given : Value) (verbose : Bool) :
    Steady Absorbs b b' (configureRaw given verbose) (configureRaw given verbose) :=
  regular_bind (regular_ofLogged fun _ _ => trivial) fun o => (vetted_configure o verbose).steady

end Covering

/-! ### The setup cluster -/

namespace DecodedAction

theorem accepted_ofValue (row : Value) : Accepted (ofValue row) := by
  refine accepted_bind (accepted_ofMismatch _) fun bs => ?_
  unfold ofOctets
  split
  · exact accepted_ok _
  · refine accepted_error.mpr ?_
    simp [Fault.IsRejection, Fault.category]

theorem accepted_ofRowsFrom (index : Nat) (rows : List Value) :
    Accepted (ofRowsFrom index rows).outcome := by
  induction rows generalizing index with
  | nil => exact accepted_ok _
  | cons row rows ih =>
    rw [ofRowsFrom]
    split
    · exact accepted_logged_bind (ih (index + 1)) fun _ => accepted_ok _
    · next fault hrow =>
      split
      · exact accepted_logged_bind (accepted_ok _) fun _ => ih (index + 1)
      · have hvalue := accepted_ofValue row
        rw [hrow] at hvalue
        exact accepted_error.mpr (accepted_error.mp hvalue)

theorem accepted_ofRows (rows : List Value) : Accepted (ofRows rows).outcome :=
  accepted_logged_bind (accepted_ofRowsFrom 0 rows) fun _ =>
    accepted_logged_bind (accepted_ok _) fun _ => accepted_ok _

end DecodedAction

namespace DeviceSetup

/-- A failure of the transport, on the way to the device. -/
def IsTransport (e : Fault) : Prop := e.category = .transport ∨ e.category = .motorRunning

/-- The one failure that does not end the configuration of the setup cluster. -/
def BuildUntold (q : Request) (e : Fault) : Prop := q = buildRead ∧ IsTransport e

theorem vetted_read : Vetted Absorbs b b' DeviceSetup.read DeviceSetup.read := by
  refine regular_bind (regular_send _) fun _ => regular_bind (regular_send _) fun _ => ?_
  refine regular_bind (vetted_ofMismatch _) fun _ => regular_bind (vetted_ofMismatch _) fun _ => ?_
  exact regular_bind (regular_ofLogged (DecodedAction.accepted_ofRows _)) fun _ => regular_pure _

theorem vetted_readBuild (ha : ∀ q e, BuildUntold q e → Absorbs q e) :
    Vetted Absorbs b b' readBuild readBuild := by
  refine .exchange buildRead IsTransport (fun e he => ha _ e ⟨rfl, he⟩) (fun values => .done _) ?_ ?_
  · intro e he
    dsimp only
    split
    · exact regular_bind (regular_log _) fun _ => regular_pure _
    · next hother => exact absurd (by simpa [IsTransport] using he) hother
  · intro e he
    dsimp only
    split
    · next htransport => exact absurd (by simpa [IsTransport] using htransport) he
    · exact ⟨rfl, rfl⟩

theorem accepted_supportsStructuredWrite (build : Value) :
    Accepted (supportsStructuredWrite build).outcome := by
  obtain ⟨version, hversion⟩ := Version.exists_ofValue build
  refine accepted_logged_bind ?_ fun version => ?_
  · rw [hversion]
    exact accepted_ok version
  · cases version with
    | none => exact accepted_ok _
    | some v => exact accepted_ofMismatch _

theorem vetted_sendWrite (w : ArrayWrite) : Vetted Absorbs b b' w.send w.send := by
  refine regular_bind (regular_log _) fun _ => ?_
  split
  · exact regular_request _
  · exact regular_request _

theorem vetted_writePayload (level : Level) (structured : Bool) (target : ArrayAttribute)
    (elements : Value) : Vetted Absorbs b b' (writePayload level structured target elements)
      (writePayload level structured target elements) := by
  unfold writePayload
  split
  · refine regular_bind (vetted_ofMismatch _) fun w => ?_
    exact regular_bind (vetted_sendWrite w) fun _ => regular_note _ _ _
  · exact regular_pure _

theorem vetted_writeAll (level : Level) (structured : Bool) (payloads : Payloads)
    (compiled : Value) : Vetted Absorbs b b' (writeAll level structured payloads compiled)
      (writeAll level structured payloads compiled) := by
  refine regular_bind (vetted_writePayload _ _ _ _) fun _ => ?_
  exact regular_bind (vetted_writePayload _ _ _ _) fun _ => vetted_writePayload _ _ _ _

theorem vetted_readBack (level : Level) (n : Nat) :
    Vetted Absorbs b b' (readBack level (b + n)) (readBack level (b' + n)) := by
  refine regular_bind vetted_read fun result => regular_clock_bind fun m => ?_
  rw [Nat.add_sub_add_left, Nat.add_sub_add_left]
  exact regular_bind (regular_note _ _ _) fun _ => regular_pure _

theorem vetted_buildFor (ha : ∀ q e, BuildUntold q e → Absorbs q e) (build : Value) :
    Vetted Absorbs b b' (buildFor build) (buildFor build) := by
  unfold buildFor
  split
  · exact vetted_readBuild ha
  · exact regular_pure _

theorem vetted_deliver (ha : ∀ q e, BuildUntold q e → Absorbs q e) (model build : Value)
    (payloads : Payloads) (compiled : Value) (level : Level) (n : Nat) :
    Vetted Absorbs b b' (deliver model build payloads compiled level (b + n))
      (deliver model build payloads compiled level (b' + n)) := by
  refine regular_bind (vetted_buildFor ha build) fun build => ?_
  refine regular_bind (regular_ofLogged (accepted_supportsStructuredWrite build)) fun _ => ?_
  refine regular_bind (regular_note _ _ _) fun _ => ?_
  exact regular_bind (vetted_writeAll _ _ _ _) fun _ => vetted_readBack _ n

theorem steady_configure (ha : ∀ q e, BuildUntold q e → Absorbs q e) (model build : Value)
    (payloads : Payloads) (verbose : Bool) :
    Steady Absorbs b b' (configure model build payloads verbose)
      (configure model build payloads verbose) := by
  rw [configure_eq]
  refine regular_clock_bind fun n => regular_bind (regular_ofOutcome fun _ _ => trivial) fun _ => ?_
  refine regular_bind (regular_ofLogged fun _ _ => trivial) fun compiled => ?_
  exact (vetted_deliver ha model build payloads compiled _ n).steady

end DeviceSetup

/-! ### Dimmers -/

namespace Dimmer

theorem vetted_read : Vetted Absorbs b b' Dimmer.read Dimmer.read := by
  refine regular_bind (regular_send _) fun _ => regular_bind (regular_send _) fun _ => ?_
  refine regular_bind (regular_send _) fun _ => regular_bind (regular_send _) fun level => ?_
  refine regular_bind (vetted_ofMismatch _) fun _ => regular_bind (vetted_ofMismatch _) fun _ => ?_
  refine regular_bind (vetted_ofMismatch _) fun _ => ?_
  dsimp only
  split
  · exact regular_pure _
  · exact regular_bind (vetted_ofMismatch _) fun _ => regular_pure _

theorem vetted_apply (s : Settings) (verbose : Bool) :
    Vetted Absorbs b b' (apply s verbose) (apply s verbose) := by
  have hphase (level : Level) :
      Vetted Absorbs b b' (writePhase level s.phase) (writePhase level s.phase) := by
    cases s.phase with
    | none => exact regular_pure _
    | some phase => exact regular_bind (regular_request _) fun _ => regular_note _ _ _
  have hlevel (level : Level) :
      Vetted Absorbs b b' (writeLevel level s.level) (writeLevel level s.level) := by
    cases s.level with
    | none => exact regular_pure _
    | some n => exact regular_bind (regular_request _) fun _ => regular_note _ _ _
  refine regular_clock_bind fun n => regular_bind (hphase _) fun _ => ?_
  refine regular_bind (hlevel _) fun _ => regular_bind vetted_read fun _ => ?_
  refine regular_clock_bind fun m => ?_
  rw [Nat.add_sub_add_left, Nat.add_sub_add_left]
  exact regular_bind (regular_note _ _ _) fun _ => regular_pure _

theorem steady_configure (phase minimum : Value) (verbose : Bool) :
    Steady Absorbs b b' (configure phase minimum verbose) (configure phase minimum verbose) :=
  regular_bind (regular_ofOutcome fun _ _ => trivial) fun s => (vetted_apply s verbose).steady

end Dimmer

/-! ### Jobs -/

/-- Whatever a job is for, two copies of its procedure go on side by side. -/
theorem Purpose.steady (p : Purpose) (verbose : Bool) (b b' : Nat) :
    Steady (fun _ _ => True) b b' (p.procedure verbose) (p.procedure verbose) := by
  cases p with
  | configureCovering o => exact (Covering.vetted_configure o verbose).steady
  | readCovering => exact Covering.vetted_readReport.steady
  | configureDeviceSetup model payloads =>
    exact DeviceSetup.steady_configure (fun _ _ _ => trivial) model .null payloads verbose
  | readDeviceSetup => exact DeviceSetup.vetted_read.steady
  | configureDimmer phase minimum => exact Dimmer.steady_configure phase minimum verbose
  | readDimmer => exact Dimmer.vetted_read.steady

end Commissioning

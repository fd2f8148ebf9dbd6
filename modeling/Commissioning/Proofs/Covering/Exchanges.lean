import Commissioning.Proofs.Covering.Options
import Commissioning.Proofs.Covering.Phase

/-!
What the phases exchange with the device. A phase asks only for what is its own, and each of the
phases that touch the mode has one shape.

    settle     read mode ──┬─ bit clear ──▶ mode
                           └─ bit set ────▶ write mode & ~2
    base       write type, config status, mode & ~2
    prime …    command, then read status until it is 0
    reset      write limits and steps
    enable     write mode | 2
    overrides  write one attribute each
    finalize   write mode & ~2
-/
namespace Commissioning.Covering
open Attribute Procedure

/-- The question for the mode. -/
def modeRead : Request := .read .windowCovering [coveringMode] none

/-- The request that writes a mode. -/
def modeWrite (n : Int) : Request := .write .windowCovering [(coveringMode, .int n)] none

/-- The question whether the motor still runs. -/
def statusRead : Request := .read .windowCovering [operationalStatus] none

/-- The request that forgets limits and steps. -/
def resetWrite : Request :=
  .write .windowCovering (resetValues.map fun (key, n) => (key, .int n)) (some manufacturerCode)

/-- A request that writes one attribute. -/
def attributeWrite (key : String) (v : Value) (manufacturer : Option Int) : Request :=
  .write .windowCovering [(key, v)] manufacturer

/-- The phases that set the motor in motion. -/
def Phase.moves : Phase → Bool
  | .prime | .learnLower | .learnRange => true
  | _ => false

/-- What a phase may ask for. -/
inductive Phase.Asks : Phase → Request → Prop where
  | findMode : Asks .settle modeRead
  | settleMode (n : Int) : Asks .settle (modeWrite (clearBit n))
  | baseMode (n : Int) : Asks .base (modeWrite (clearBit n))
  | base (key : String) (v : Value) (hk : key ∈ baseAttributes) (hm : key ≠ coveringMode) :
    Asks .base (attributeWrite key v none)
  | drive (p : Phase) (hp : p.moves) (name : String) : Asks p (.command .windowCovering name)
  | poll (p : Phase) (hp : p.moves) : Asks p statusRead
  | reset : Asks .reset resetWrite
  | enable (n : Int) : Asks .enable (modeWrite (setBit n))
  | override (key : String) (v : Value) (hk : key ∈ overrideAttributes) :
    Asks .overrides (attributeWrite key v (some manufacturerCode))
  | finalize (n : Int) : Asks .finalize (modeWrite (clearBit n))

/-- A question for one of the three groups of the report. -/
inductive ReportRead : Request → Prop where
  | geometry : ReportRead (.read .windowCovering geometryAttributes none)
  | status : ReportRead (.read .windowCovering statusAttributes none)
  | vendor : ReportRead (.read .windowCovering vendorAttributes (some manufacturerCode))

/-- The mode in an answer; an answer without one counts as no bit set. -/
def modeIn (values : Entries) : Except Mismatch Int :=
  let found := values.get coveringMode
  if found.isTruthy then found.toInteger else .ok 0

/-- The mode after a base attribute. -/
def modeAfter (mode : Int) (key : String) (v : Value) : Except Mismatch Int :=
  if key = coveringMode then modeOf v else .ok mode

/-! ### The phases that touch the mode -/

/-- Clears a bit that an earlier run has left. -/
def clearLeftover (mode : Int) : Procedure Unit :=
  if hasBit mode then (do writeMode (clearBit mode); pause settleTime) else pure ()

theorem settle_eq (level : Level) : settle level = (do
    let mode ← .ofMismatch (modeIn (← .read .windowCovering [coveringMode] none))
    .note level "Settle" [("mode", .str (modeText mode))]
    clearLeftover mode
    return clearBit mode) := by
  unfold settle
  congr 1
  funext values
  have hjump : ∀ mode : Int, (do
      note level "Settle" [("mode", .str (modeText mode))]
      if hasBit mode then
        writeMode (clearBit mode)
        pause settleTime
      return clearBit mode : Procedure Int) = (do
      note level "Settle" [("mode", .str (modeText mode))]
      clearLeftover mode
      return clearBit mode) := by
    intro mode
    congr 1
    funext _
    by_cases hm : hasBit mode <;> simp [hm, clearLeftover]
  simp only [modeIn]
  split
  · exact congrArg _ (funext hjump)
  · exact hjump 0

theorem writeBase_cons (level : Level) (mode : Int) (key : String) (v : Value) (rest : Entries) :
    writeBase level mode ((key, v) :: rest) = (do
      let after ← .ofMismatch (modeAfter mode key v)
      let shown := if key = coveringMode then .int after else v
      .note level "BaseConfig" [("attribute", .str key), ("value", shown)]
      writeOne key shown none
      .pause settleTime
      writeBase level after rest) := by
  rw [writeBase]
  simp only [modeAfter, beq_iff_eq]
  by_cases hk : key = coveringMode
  · simp [hk]
  · simp [hk, ofMismatch_ok]

/-- One question whether the motor still runs, and what is done with its answer. -/
theorem runs_pollOnce_bind {α : Type} {start now finish : Nat} {t : List Exchange} {a : α}
    {f : Value × Nat → Procedure α} (h : Runs (pollOnce start >>= f) now t (.ok a) finish) :
    ∃ sent later values rest, t = ⟨statusRead, sent, some (later, .ok values)⟩ :: rest ∧
      Runs (f (values.get operationalStatus, later - start)) later rest (.ok a) finish := by
  rw [pollOnce, bind_assoc] at h
  rcases runs_pause_bind.mp h with ⟨-, -, ⟨⟩⟩ | ⟨sent, -, h₁⟩
  rw [bind_assoc] at h₁
  rcases runs_send_bind h₁ with ⟨later, values, rest, -, rfl, h₂⟩ | ⟨-, -, ⟨⟩⟩ | ⟨_, -, -, ⟨⟩⟩
  exact ⟨sent, later, values, rest, rfl, h₂⟩

namespace Phase

theorem sends_pollOnce {p : Phase} (hp : p.moves) (start : Nat) :
    Sends p.Asks (pollOnce start) := by
  refine sends_bind sends_pause fun _ => sends_bind (sends_send (.poll p hp)) fun _ => ?_
  exact sends_bind sends_clock fun _ => sends_pure

theorem sends_pollUntilStopped {p : Phase} (hp : p.moves) (text : String) (start polls left : Nat) :
    Sends p.Asks (pollUntilStopped text start polls left) := by
  induction left generalizing polls with
  | zero =>
    refine sends_bind (sends_pollOnce hp start) fun (status, elapsed) => ?_
    simp only
    split <;> trivial
  | succ left ih =>
    refine sends_bind (sends_pollOnce hp start) fun (status, elapsed) => ?_
    simp only
    split
    · trivial
    · split
      · trivial
      · exact ih (polls + 1)

theorem sends_awaitStop {p : Phase} (hp : p.moves) (text : String) :
    Sends p.Asks (awaitStop text) :=
  fun start => sends_pollUntilStopped hp text start 0 _

theorem sends_drive {p : Phase} (hp : p.moves) (name : String) : Sends p.Asks (drive name) :=
  sends_request (.drive p hp name)

theorem sends_settle (level : Level) : Sends Phase.settle.Asks (Covering.settle level) := by
  rw [settle_eq]
  refine sends_bind (sends_send .findMode) fun values => ?_
  refine sends_bind (sends_ofOutcome _) fun mode => sends_bind sends_note fun _ => ?_
  refine sends_bind ?_ fun _ => sends_pure
  unfold clearLeftover
  split
  · exact sends_bind (sends_request (.settleMode mode)) fun _ => sends_pause
  · exact sends_pure

/-- Nothing is asked for what the log is told. -/
theorem sends_announce {Q : Request → Prop} (o : Options) : Sends Q (announce o) := by
  rcases announce_cases o with ho | ⟨ho, -⟩ <;> rw [ho] <;> trivial

/-- A mode that a base attribute leaves has no calibration bit. -/
theorem modeAfter_eq_ok {mode after : Int} {v : Value}
    (h : modeAfter mode coveringMode v = .ok after) : ∃ n, after = clearBit n := by
  rw [modeAfter, if_pos rfl, modeOf] at h
  split at h
  · next n _ => exact ⟨n, (Except.ok.inj h).symm⟩
  · cases h

theorem sends_writeBase (level : Level) (mode : Int) {base : Entries}
    (hb : ∀ e ∈ base, e.1 ∈ baseAttributes) : Sends Phase.base.Asks (writeBase level mode base) := by
  induction base generalizing mode with
  | nil => trivial
  | cons e base ih =>
    obtain ⟨key, v⟩ := e
    obtain ⟨he, hb⟩ := List.forall_mem_cons.mp hb
    rw [writeBase_cons]
    cases hm : modeAfter mode key v with
    | error e => trivial
    | ok after =>
      rw [ofMismatch_ok, pure_bind]
      refine sends_bind sends_note fun _ => sends_bind (sends_request ?_) fun _ =>
        sends_bind sends_pause fun _ => ih after hb
      by_cases hk : key = coveringMode
      · subst hk
        obtain ⟨n, rfl⟩ := modeAfter_eq_ok hm
        rw [if_pos rfl]
        exact .baseMode n
      · rw [if_neg hk]
        exact .base key v he hk

theorem sends_writeOverrides (level : Level) {overrides : Entries}
    (ho : ∀ e ∈ overrides, e.1 ∈ overrideAttributes) :
    Sends Phase.overrides.Asks (writeOverrides level overrides) := by
  induction overrides with
  | nil => trivial
  | cons e overrides ih =>
    obtain ⟨key, v⟩ := e
    obtain ⟨he, ho⟩ := List.forall_mem_cons.mp ho
    exact sends_bind sends_note fun _ => sends_bind (sends_request (.override key v he)) fun _ => ih ho

/-- A phase asks only for what is its own. -/
theorem sends_procedure {given : Entries} {o : Options} (ho : o.Of given) (level : Level)
    (mode : Int) (p : Phase) : Sends p.Asks (p.procedure o level mode) := by
  cases p with
  | settle => exact sends_bind (sends_announce o) fun _ => sends_settle level
  | base => exact sends_writeBase level mode ho.base_keys
  | prime =>
    refine sends_bind ?_ fun _ => sends_pure
    exact sends_bind sends_note fun _ => sends_bind (sends_drive rfl _) fun _ => sends_awaitStop rfl _
  | reset =>
    refine sends_bind ?_ fun _ => sends_pure
    exact sends_bind sends_note fun _ => sends_bind (sends_request .reset) fun _ => sends_pause
  | enable =>
    refine sends_bind ?_ fun _ => sends_pure
    exact sends_bind sends_note fun _ => sends_bind (sends_request (.enable mode)) fun _ => sends_pause
  | learnLower =>
    refine sends_bind ?_ fun _ => sends_pure
    refine sends_bind sends_note fun _ => sends_bind (sends_drive rfl _) fun _ => ?_
    refine sends_bind sends_pause fun _ => sends_bind (sends_drive rfl _) fun _ => ?_
    exact sends_bind sends_pause fun _ => sends_bind (sends_drive rfl _) fun _ => sends_awaitStop rfl _
  | learnRange =>
    refine sends_bind ?_ fun _ => sends_pure
    refine sends_bind sends_note fun _ => sends_bind (sends_drive rfl _) fun _ => ?_
    refine sends_bind (sends_awaitStop rfl _) fun _ => ?_
    exact sends_bind (sends_drive rfl _) fun _ => sends_awaitStop rfl _
  | overrides => exact sends_bind (sends_writeOverrides level ho.override_keys) fun _ => sends_pure
  | finalize =>
    refine sends_bind ?_ fun _ => sends_pure
    refine sends_bind sends_pause fun _ => sends_bind sends_note fun _ => ?_
    exact sends_bind (sends_request (.finalize mode)) fun _ => sends_pause

end Phase

/-- Phases one after the other ask for what each of them asks for. -/
theorem sends_performPhases {given : Entries} {o : Options} {Q : Request → Prop} (ho : o.Of given)
    (level : Level) {ps : List Phase} (mode : Int) (hq : ∀ p ∈ ps, ∀ q, p.Asks q → Q q) :
    Sends Q (performPhases o level ps mode) := by
  induction ps generalizing mode with
  | nil => exact sends_pure
  | cons p ps ih =>
    obtain ⟨hp, hps⟩ := List.forall_mem_cons.mp hq
    exact sends_bind ((Phase.sends_procedure ho level mode p).mono hp) fun after => ih after hps

/-- The report is made of reads. -/
theorem sends_readReport : Sends ReportRead readReport :=
  sends_bind (sends_send .geometry) fun _ => sends_bind (sends_send .status) fun _ =>
    sends_bind (sends_send .vendor) fun _ => sends_pure

theorem asks_conclude (o : Options) (start : Nat) : Sends ReportRead (conclude o start) :=
  sends_bind sends_readReport fun _ => sends_bind sends_clock fun _ =>
    sends_bind sends_log fun _ => sends_pure

end Commissioning.Covering

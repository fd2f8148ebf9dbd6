import Commissioning.Proofs.Covering.Pace
import Commissioning.Proofs.Covering.Writes

/-!
Movements and pauses of a run, however the device answers and wherever the run breaks off.

    up_open … status 0 │ down_close, stop │ up_open … status 0 │ down_close … status 0 │ up_open …
                       └ limits, mode        a movement begins only behind a bar
-/
namespace Commissioning

/-- Whether a request reads an attribute. -/
def Request.Reads (q : Request) (key : String) : Prop :=
  match q with
  | .read _ names _ => key ∈ names
  | _ => False

namespace Covering
open Attribute Procedure
variable {o : Options} {level : Level} {mode : Int} {now finish : Nat} {h t : List Exchange}

/-! ### Exchanges by their phases -/

/-- An exchange stands in the first phase, or in those that follow. -/
theorem append_mark_cases {p : Phase} {rest before after : History} {e : Phase × Exchange}
    (heq : mark p t ++ rest = before ++ e :: after) :
    (e.1 = p ∧ ∃ a, t = before.map Prod.snd ++ e.2 :: a) ∨
      ∃ b, before = mark p t ++ b ∧ rest = b ++ e :: after := by
  rcases List.append_eq_append_iff.mp heq with ⟨b, rfl, hrest⟩ | ⟨b, hmark, hb⟩
  · exact .inr ⟨b, rfl, hrest⟩
  · cases b with
    | nil => exact .inr ⟨[], by simpa using hmark.symm, hb.symm⟩
    | cons x b =>
      cases hb
      have he : e ∈ mark p t := hmark ▸ by simp
      obtain ⟨_, -, rfl⟩ := List.mem_map.mp he
      refine .inl ⟨rfl, b.map Prod.snd, ?_⟩
      rw [← mark_map_snd p t, hmark, List.map_append, List.map_cons]

theorem asks_of_runsPhases {given : Entries} {ps : List Phase} {m : History} {r : Except Stop Int}
    (ho : o.Of given) (hm : RunsPhases o level ps mode now m r finish) :
    ∀ e ∈ m, e.1.Asks e.2.request := by
  have hmark {p : Phase} {mode : Int} {t : List Exchange} {r : Except Stop Int} {now finish : Nat}
      (hr : Runs (p.procedure o level mode) now t r finish) : ∀ e ∈ mark p t, e.1.Asks e.2.request := by
    intro e he
    obtain ⟨x, hx, rfl⟩ := List.mem_map.mp he
    exact (Phase.sends_procedure ho level mode p).of_runs hr x hx
  induction ps generalizing mode now m with
  | nil =>
    obtain ⟨rfl, -, -⟩ := hm
    simp
  | cons p ps ih =>
    rcases hm with ⟨after, t, rest, mid, h₁, h₂, rfl⟩ | ⟨stop, t, h₁, -, rfl⟩
    · exact List.forall_mem_append.mpr ⟨hmark h₁, ih h₂⟩
    · exact hmark h₁

/-- The device is taken out of calibration only when everything before has been over for a while. -/
theorem finalize_waits {ps : List Phase} {m before after : History} {x : Exchange}
    {r : Except Stop Int} (hi : Idle h now) (hm : RunsPhases o level ps mode now m r finish)
    (heq : m = before ++ (.finalize, x) :: after) :
    ∀ y ∈ h ++ before.map Prod.snd, y.OverFor settleTime x.sent := by
  induction ps generalizing h mode now m before with
  | nil =>
    obtain ⟨rfl, -, -⟩ := hm
    simp at heq
  | cons p ps ih =>
    have hfirst {r : Except Stop Int} {t b a : List Exchange} {finish : Nat}
        (hr : Runs (Phase.finalize.procedure o level mode) now t r finish) (ht : t = b ++ x :: a) :
        ∀ y ∈ h ++ b, y.OverFor settleTime x.sent := by
      have hwaits : Proceeds (fun before x => ∀ y ∈ before, y.OverFor settleTime x.sent)
          (Phase.finalize.procedure o level mode) now h fun _ _ _ => True := by
        refine proceeds_bind (proceeds_bind (proceeds_pause fun later hl => ?_))
        refine proceeds_bind (proceeds_note (proceeds_bind (proceeds_request ?_ ?_)))
        · exact fun _ y hy => (hi.ended y hy).wait hl
        · exact fun _ _ _ => proceeds_pause fun _ _ => proceeds_pure trivial
      exact ((ht ▸ hwaits _ _ _ hr).1).fits
    rcases hm with ⟨mode', t, rest, mid, h₁, h₂, rfl⟩ | ⟨stop, t, h₁, -, rfl⟩
    · rcases append_mark_cases heq with ⟨rfl, a, ht⟩ | ⟨b, rfl, hrest⟩
      · exact hfirst h₁ ht
      · have hnext := ih ((keepsPace_phase p hi t _ mid h₁).2 mode' rfl).idle h₂ hrest
        rwa [List.map_append, mark_map_snd, ← List.append_assoc]
    · rw [← List.append_nil (mark p t)] at heq
      rcases append_mark_cases heq with ⟨rfl, a, ht⟩ | ⟨b, rfl, hrest⟩
      · exact hfirst h₁ ht
      · simp at hrest

/-- A phase that has to be run has been, if all have ended well. -/
theorem phase_of_ok {ps : List Phase} {p : Phase} {m : History} {a : Int}
    (hm : RunsPhases o level ps mode now m (.ok a) finish) (hp : p ∈ ps) :
    ∃ mode now t after finish, Runs (p.procedure o level mode) now t (.ok after) finish ∧
      ∀ x ∈ t, (p, x) ∈ m := by
  induction ps generalizing mode now m with
  | nil => simp at hp
  | cons q ps ih =>
    rcases hm with ⟨after, t, rest, mid, h₁, h₂, rfl⟩ | ⟨_, _, _, ⟨⟩, _⟩
    rcases List.mem_cons.mp hp with rfl | hp
    · exact ⟨mode, now, t, after, mid, h₁,
        fun x hx => List.mem_append_left rest (List.mem_map_of_mem hx)⟩
    · obtain ⟨mode', now', t', after', finish', hr, hmem⟩ := ih h₂ hp
      exact ⟨mode', now', t', after', finish', hr, fun x hx => List.mem_append_right _ (hmem x hx)⟩

theorem finalize_of_ok {m : History} {a : Int} (hc : o.calibrate = true)
    (hm : RunsPhases o level (Phase.all o.calibrate) mode now m (.ok a) finish) :
    ∃ x, (Phase.finalize, x) ∈ m := by
  rw [hc] at hm
  obtain ⟨mode', now', t', after', finish', hr, hmem⟩ :=
    phase_of_ok (p := .finalize) hm (by decide)
  rcases runs_pause_bind.mp hr with ⟨-, -, ⟨⟩⟩ | ⟨later, -, h₁⟩
  have h₂ : Runs ((do (do let _ ← send (modeWrite (clearBit mode'))); pause settleTime) >>=
    fun _ => pure mode') later t' (.ok after') finish' := h₁
  rw [bind_assoc] at h₂
  obtain ⟨x, rfl, -⟩ := runs_single h₂
  exact ⟨x, hmem x (List.mem_singleton_self x)⟩

/-! ### A whole run -/

/-- What is safe about the movements of a run. -/
structure MovesSafely (o : Options) (t : List Exchange) (r : Except Stop Entries) : Prop where
  /-- Between two movements the motor was found standing still or was stopped, and some time before
  the later of them. -/
  movements : ∀ before x mid y after, t = before ++ x :: (mid ++ y :: after) → x.Moves → y.Moves →
    ∃ z ∈ mid, z.ShowsRest ∧ z.OverFor settleTime y.sent
  /-- Between a movement and a write the motor was found standing still. -/
  writes : ∀ before x mid y after, t = before ++ x :: (mid ++ y :: after) → x.Moves →
    y.request.IsWrite → ∃ z ∈ mid, z.FoundStopped ∧ z.OverFor settleTime y.sent
  /-- A calibration that gives a report has sent its commands in their order. -/
  commands : o.calibrate = true → ∀ report, r = .ok report → commandsOf t = [Command.upOpen,
    Command.downClose, Command.stop, Command.upOpen, Command.downClose, Command.upOpen]
  /-- Without a calibration nothing is set in motion, and nobody asks before the report whether the
  motor runs. -/
  resting : o.calibrate = false → (∀ x ∈ t, ¬ x.IsCommand) ∧ ∃ work report, t = work ++ report ∧
    (∀ x ∈ work, ¬ x.request.Reads operationalStatus) ∧ ∀ x ∈ report, ReportRead x.request

section
variable {given : Entries} {verbose : Bool} {m : History} {r : Except Stop Entries}

/-- The exchanges of a run belong to its phases, and those that are left to the report. -/
theorem exists_phases {given : Value} (ho : (validate given).outcome = .ok o)
    (hr : Runs (configureRaw given verbose) now t r finish) :
    ∃ m rest r' mid, t = m.map Prod.snd ++ rest ∧
      RunsPhases o (Level.ofVerbose verbose) (Phase.all o.calibrate) 0 now m r' mid ∧
      (∀ x ∈ rest, ReportRead x.request) ∧ ∀ report, r = .ok report → ∃ mode, r' = .ok mode := by
  obtain ⟨m, rest, r', mid, hsplit, hm, hrest⟩ := runs_configureRaw ho hr
  refine ⟨m, rest, r', mid, hsplit, hm, ?_⟩
  rcases hrest with ⟨mode, rfl, hc⟩ | ⟨stop, rfl, rfl, rfl, rfl⟩
  · exact ⟨(asks_conclude o now).of_runs hc, fun _ _ => ⟨mode, rfl⟩⟩
  · exact ⟨by simp, nofun⟩

/-- A phase without a movement sends no command and does not ask whether the motor runs. -/
theorem quiet_of_asks {p : Phase} {x : Exchange} (hp : p.moves = false) (hx : p.Asks x.request) :
    ¬ x.IsCommand ∧ ¬ x.request.Reads operationalStatus := by
  refine ⟨not_isCommand_of_asks hp hx, ?_⟩
  generalize x.request = q at hx
  cases hx with
  | findMode => simp [modeRead, Request.Reads, operationalStatus, coveringMode]
  | poll _ hm => simp [hp] at hm
  | _ => exact id

theorem moves_of_plain : ∀ p ∈ Phase.all false, p.moves = false := by decide

/-- However a run for checked options goes and wherever it breaks off, it moves the motor safely. -/
theorem movement_safe {given : Value} (ho : (validate given).outcome = .ok o)
    (hr : Runs (configureRaw given verbose) now t r finish) : MovesSafely o t r := by
  obtain ⟨ht, hend⟩ := keepsPace_configure t r finish (runs_checked ho hr)
  obtain ⟨entries, rfl, hof⟩ := validate_ok ho
  obtain ⟨m, rest, r', mid, hsplit, hm, hreport, -⟩ := exists_phases ho hr
  exact {
    movements := by
      rintro before x mid y after rfl hx hy
      rw [← List.cons_append, ← List.append_assoc] at ht
      exact ht.fits.moves hy before x mid rfl hx
    writes := by
      rintro before x mid y after rfl hx hy
      rw [← List.cons_append, ← List.append_assoc] at ht
      exact ht.fits.writes hy before x mid rfl hx
    commands := by
      rintro hc report rfl
      have hcommands := (hend report rfl).commands
      rw [hc] at hcommands
      exact hcommands
    resting := by
      intro hc
      have hquiet : ∀ x ∈ m.map Prod.snd, ¬ x.IsCommand ∧ ¬ x.request.Reads operationalStatus := by
        intro x hx
        obtain ⟨e, he, rfl⟩ := List.mem_map.mp hx
        exact quiet_of_asks (moves_of_plain e.1 (hc ▸ phase_mem hm e he))
          (asks_of_runsPhases hof hm e he)
      refine ⟨?_, _, rest, hsplit, fun x hx => (hquiet x hx).2, hreport⟩
      rw [hsplit]
      refine List.forall_mem_append.mpr ⟨fun x hx => (hquiet x hx).1, fun x hx => ?_⟩
      rintro ⟨cluster, name, hq⟩
      have hread := hreport x hx
      rw [hq] at hread
      cases hread }

theorem movement_safe_calibration : ∃ o t report finish,
    (validate calibrationOf100).outcome = .ok o ∧ o.calibrate = true ∧
      Runs (configureRaw calibrationOf100 false) 0 t (.ok report) finish ∧
      MovesSafely o t (.ok report) := by
  have ho := congrArg Logged.outcome validate_calibrationOf100
  obtain ⟨t, report, finish, hr⟩ := runs_calibrationOf100
  exact ⟨_, t, report, finish, ho, rfl, hr, movement_safe ho hr⟩

/-- What takes time is given it. -/
structure WaitsEnough (t : List Exchange) (m : History) : Prop where
  /-- A write settles before the next exchange. -/
  writes : ∀ before x y after, t = before ++ x :: y :: after → x.Settles →
    x.OverFor settleTime y.sent
  /-- The motor is stopped after a short travel down. -/
  stops : ∀ before x after, t = before ++ x :: after → x.Stops → ∃ first y, before = first ++ [y] ∧
    y.request.command? = some Command.downClose ∧ y.OverFor sampleTime x.sent
  /-- Before the device is taken out of calibration, all has been over for a while: the last
  override, or the last question whether the motor runs if nothing is overridden. -/
  finalizing : ∀ before x after, m = before ++ (.finalize, x) :: after →
    ∀ e ∈ before, e.2.OverFor settleTime x.sent

/-- However a run for checked options goes and wherever it breaks off, it waits long enough. -/
theorem settle_delays {given : Value} (ho : (validate given).outcome = .ok o)
    (hr : Runs (configureRaw given verbose) now t r finish) :
    ∃ m rest r' mid, t = m.map Prod.snd ++ rest ∧
      RunsPhases o (Level.ofVerbose verbose) (Phase.all o.calibrate) 0 now m r' mid ∧
      (∀ x ∈ rest, ReportRead x.request) ∧ WaitsEnough t m ∧
      (o.calibrate = true → ∀ report, r = .ok report → ∃ x, (Phase.finalize, x) ∈ m) := by
  obtain ⟨ht, -⟩ := keepsPace_configure t r finish (runs_checked ho hr)
  obtain ⟨m, rest, r', mid, hsplit, hm, hreport, hok⟩ := exists_phases ho hr
  refine ⟨m, rest, r', mid, hsplit, hm, hreport, ?_, ?_⟩
  · exact {
      writes := by
        rintro before x y after rfl hx
        rw [List.append_cons] at ht
        exact ht.fits.settled x List.getLast?_concat hx
      stops := by
        rintro before x after rfl hx
        obtain ⟨y, hlast, hy, hover⟩ := ht.fits.stops hx
        obtain ⟨first, rfl⟩ := List.getLast?_eq_some_iff.mp hlast
        exact ⟨first, y, rfl, hy, hover⟩
      finalizing := fun before x after heq e he =>
        finalize_waits idle_nil hm heq e.2 (List.mem_map_of_mem he) }
  · intro hc report hrep
    obtain ⟨mode, rfl⟩ := hok report hrep
    exact finalize_of_ok hc hm

/-- Both an override and the end of the calibration are written here. -/
theorem settle_delays_calibration : ∃ o t report finish m rest,
    (validate calibrationOf100).outcome = .ok o ∧
      Runs (configureRaw calibrationOf100 false) 0 t (.ok report) finish ∧
      t = m.map Prod.snd ++ rest ∧ WaitsEnough t m ∧ ∃ x, (Phase.finalize, x) ∈ m := by
  have ho := congrArg Logged.outcome validate_calibrationOf100
  obtain ⟨t, report, finish, hr⟩ := runs_calibrationOf100
  obtain ⟨m, rest, r', mid, ht, -, -, hwaits, hfinalize⟩ := settle_delays ho hr
  exact ⟨_, t, report, finish, m, rest, ho, hr, ht, hwaits, hfinalize rfl report rfl⟩

end

end Covering

end Commissioning

import Commissioning.Covering.Calibration
import Commissioning.Proofs.Exchange.Run

/-!
The phases of a run and its exchanges phase by phase. A phase begins only when the one before has
ended well, so a run is the runs of some phases, all but the last of them complete, and of the report
if all of them are.

    settle    base              overrides       report
    [read] ++ [write, write] ++ [write, …] ++ [read, read, read]
-/
namespace Commissioning.Covering
open Attribute

/-- The phases of a run up to the report. The first of them begins with telling the log what is about
to be done. -/
inductive Phase where
  | settle
  | base
  | prime
  | reset
  | enable
  | learnLower
  | learnRange
  | overrides
  | finalize
  deriving DecidableEq, Repr

namespace Phase

/-- The phases of a run in their order. -/
def all (calibrate : Bool) : List Phase :=
  if calibrate then
    [settle, base, prime, reset, enable, learnLower, learnRange, overrides, finalize]
  else [settle, base, overrides]

/-- What is done in a phase; gives the mode that later phases go by. -/
def procedure (o : Options) (level : Level) (mode : Int) : Phase → Procedure Int
  | settle => do announce o; Covering.settle level
  | base => writeBase level mode o.base
  | prime => do Covering.prime level; return mode
  | reset => do resetLimits level; return mode
  | enable => do Covering.enable level mode; return mode
  | learnLower => do learnLowerBound level; return mode
  | learnRange => do learnFullRange level; return mode
  | overrides => do writeOverrides level o.overrides; return mode
  | finalize => do Covering.finalize level mode; return mode

end Phase

/-- Phases one after the other. -/
def performPhases (o : Options) (level : Level) : List Phase → Int → Procedure Int
  | [], mode => pure mode
  | p :: ps, mode => do performPhases o level ps (← p.procedure o level mode)

/-- Reads the report and tells how long all has taken. -/
def conclude (o : Options) (start : Nat) : Procedure Entries := do
  let report ← readReport
  let finish ← .clock
  .log (Log.banner "J1 configuration finished" [("calibrate", o.flag),
    ("elapsed_s", elapsedValue (finish - start)), ("total_steps", report.get totalSteps)])
  return report

theorem configure_eq (o : Options) (verbose : Bool) :
    configure o verbose = (do
      let start ← .clock
      let _ ← performPhases o (Level.ofVerbose verbose) (Phase.all o.calibrate) 0
      conclude o start) := by
  unfold configure
  cases h : o.calibrate <;>
    simp [performPhases, Phase.all, Phase.procedure, learn, conclude]

/-- Options are told in the log, unless they cannot be shown. -/
theorem announce_cases (o : Options) :
    announce o = .log (Log.banner "J1 configuration started" o.announcement) ∨
      announce o = .fail (.mismatch .unwritable) ∧
        (Value.dict o.announcement).isShowable = false := by
  unfold announce Procedure.banner
  split
  · exact .inl rfl
  · next h => exact .inr ⟨rfl, eq_false_of_ne_true h⟩

/-- Options that can be shown are told in the log. -/
theorem announce_of_isShowable {o : Options} (h : (Value.dict o.announcement).isShowable = true) :
    announce o = .log (Log.banner "J1 configuration started" o.announcement) := if_pos h

/-! ### Runs phase by phase -/

/-- Exchanges, each with its phase. -/
abbrev History := List (Phase × Exchange)

/-- The exchanges of one phase. -/
def mark (p : Phase) (t : List Exchange) : History := t.map (p, ·)

/-- A run of phases one after the other from a mode on. -/
def RunsPhases (o : Options) (level : Level) :
    List Phase → Int → Nat → History → Except Stop Int → Nat → Prop
  | [], mode, now, m, r, finish => m = [] ∧ r = .ok mode ∧ finish = now
  | p :: ps, mode, now, m, r, finish =>
    (∃ after t rest mid, Procedure.Runs (p.procedure o level mode) now t (.ok after) mid ∧
      RunsPhases o level ps after mid rest r finish ∧ m = mark p t ++ rest) ∨
    ∃ stop t, Procedure.Runs (p.procedure o level mode) now t (.error stop) finish ∧
      r = .error stop ∧ m = mark p t

variable {o : Options} {level : Level} {now finish : Nat} {t : List Exchange}

/-- Telling the log is no exchange: it changes nothing, or all ends before the first request. -/
theorem runs_announce_bind {α : Type} {f : Unit → Procedure α} {r : Except Stop α}
    (h : Procedure.Runs (announce o >>= f) now t r finish) :
    Procedure.Runs (f ()) now t r finish ∨
      t = [] ∧ r = .error (.raised (.mismatch .unwritable)) ∧ finish = now := by
  rcases announce_cases o with ho | ⟨ho, -⟩
  · rw [ho] at h
    exact .inl h
  · rw [ho] at h
    exact .inr h

/-- Options that cannot be shown end all before the first request. -/
theorem runs_unannounced {verbose : Bool} {r : Except Stop Entries}
    (ho : (Value.dict o.announcement).isShowable = false)
    (h : Procedure.Runs (configure o verbose) now t r finish) :
    t = [] ∧ r = .error (.raised (.mismatch .unwritable)) := by
  have hfail : announce o = .fail (.mismatch .unwritable) := if_neg (by simp [ho])
  rw [configure, hfail] at h
  exact ⟨h.1, h.2.1⟩

theorem mark_map_snd (p : Phase) (t : List Exchange) : (mark p t).map Prod.snd = t := by
  simp [mark, Function.comp_def]

theorem runs_performPhases {ps : List Phase} {mode : Int} {r : Except Stop Int}
    (h : Procedure.Runs (performPhases o level ps mode) now t r finish) :
    ∃ m, t = m.map Prod.snd ∧ RunsPhases o level ps mode now m r finish := by
  induction ps generalizing mode now t with
  | nil =>
    obtain ⟨rfl, rfl, rfl⟩ := h
    exact ⟨[], rfl, rfl, rfl, rfl⟩
  | cons p ps ih =>
    rcases Procedure.runs_bind.mp h with ⟨after, t₁, t₂, mid, h₁, h₂, rfl⟩ | ⟨stop, h₁, rfl⟩
    · obtain ⟨m, rfl, hm⟩ := ih h₂
      refine ⟨mark p t₁ ++ m, ?_, .inl ⟨after, t₁, m, mid, h₁, hm, rfl⟩⟩
      rw [List.map_append, mark_map_snd]
    · exact ⟨mark p t, (mark_map_snd p t).symm, .inr ⟨stop, t, h₁, rfl, rfl⟩⟩

/-- A run is a run of its phases and, after the last of them, of the report. -/
theorem runs_configure {verbose : Bool} {r : Except Stop Entries}
    (h : Procedure.Runs (configure o verbose) now t r finish) :
    ∃ m rest r' mid, t = m.map Prod.snd ++ rest ∧
      RunsPhases o (Level.ofVerbose verbose) (Phase.all o.calibrate) 0 now m r' mid ∧
      ((∃ mode, r' = .ok mode ∧ Procedure.Runs (conclude o now) mid rest r finish) ∨
        ∃ stop, r' = .error stop ∧ r = .error stop ∧ rest = [] ∧ mid = finish) := by
  -- the clock says nothing to the device
  rw [configure_eq] at h
  have h' : Procedure.Runs (do
      let _ ← performPhases o (Level.ofVerbose verbose) (Phase.all o.calibrate) 0
      conclude o now) now t r finish := h
  rcases Procedure.runs_bind.mp h' with ⟨mode, t', rest, end', hp, hc, rfl⟩ | ⟨stop, hp, rfl⟩
  · obtain ⟨m, rfl, hm⟩ := runs_performPhases hp
    exact ⟨m, rest, _, end', rfl, hm, .inl ⟨mode, rfl, hc⟩⟩
  · obtain ⟨m, rfl, hm⟩ := runs_performPhases hp
    exact ⟨m, [], _, finish, (List.append_nil _).symm, hm, .inr ⟨stop, rfl, rfl, rfl, rfl⟩⟩

/-- A request that is checked on the way is run for its options. -/
theorem runs_checked {given : Value} {verbose : Bool} {r : Except Stop Entries}
    (ho : (validate given).outcome = .ok o)
    (h : Procedure.Runs (configureRaw given verbose) now t r finish) :
    Procedure.Runs (configure o verbose) now t r finish := by
  rcases Procedure.runs_bind.mp h with ⟨o', t₁, t₂, mid, h₁, h₂, rfl⟩ | ⟨stop, h₁, -⟩
  · obtain ⟨rfl, hr, rfl⟩ := Procedure.runs_ofLogged.mp h₁
    obtain rfl : o' = o := Except.ok.inj (hr.trans (congrArg (Except.mapError Stop.raised) ho))
    exact h₂
  · obtain ⟨-, hr, -⟩ := Procedure.runs_ofLogged.mp h₁
    rw [ho] at hr
    cases hr

theorem runs_configureRaw {given : Value} {verbose : Bool} {r : Except Stop Entries}
    (ho : (validate given).outcome = .ok o)
    (h : Procedure.Runs (configureRaw given verbose) now t r finish) :
    ∃ m rest r' mid, t = m.map Prod.snd ++ rest ∧
      RunsPhases o (Level.ofVerbose verbose) (Phase.all o.calibrate) 0 now m r' mid ∧
      ((∃ mode, r' = .ok mode ∧ Procedure.Runs (conclude o now) mid rest r finish) ∨
        ∃ stop, r' = .error stop ∧ r = .error stop ∧ rest = [] ∧ mid = finish) :=
  runs_configure (runs_checked ho h)

end Commissioning.Covering

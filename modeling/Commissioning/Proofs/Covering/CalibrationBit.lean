import Commissioning.Proofs.Covering.Window

/-!
The calibration bit is set in one window only. Each phase takes a history that is ready for it to one
that is ready for the next phase, and so do all of them together. Without a calibration the window
does not open; with one, the overrides are written inside it.

    ready settle ──▶ ready base ──▶ ready prime ──▶ … ──▶ ready finalize ──▶ bit clear
                              └──▶ ready overrides ──▶ bit clear
-/
namespace Commissioning.Covering
open Attribute Procedure
variable {calibrate : Bool} {h : History} {p : Phase} {x : Exchange} {mode : Int}

/-! ### One phase -/

section
variable {o : Options} {level : Level} {now finish : Nat} {t : List Exchange}

theorem mode?_modeRead {found : Int} {values : Entries} (sent later : Nat)
    (hf : modeIn values = .ok found) :
    Exchange.mode? ⟨modeRead, sent, some (later, .ok values)⟩ = some found := by
  simp [Exchange.mode?, Exchange.foundMode?, Exchange.answer?, Request.writtenMode?, modeRead, hf,
    Except.toOption]

theorem mode?_modeWrite {n : Int} (hx : x.request = modeWrite n) : x.mode? = some n := by
  rw [Exchange.mode?, hx]
  rfl

/-- One request and a pause after it. -/
theorem runs_single {q : Request} {ms : Nat} {a : Int} {r : Except Stop Int}
    (hr : Runs (do (do let _ ← send q); pause ms; return a) now t r finish) :
    ∃ x, t = [x] ∧ x.request = q ∧ ∀ b, r = .ok b → b = a ∧ x.Succeeded := by
  rcases runs_request_bind hr with ⟨later, values, rest, -, rfl, h⟩ | ⟨-, rfl, rfl⟩ | ⟨e, -, rfl, rfl⟩
  · refine ⟨⟨q, now, some (later, .ok values)⟩, ?_, rfl, ?_⟩
    · rcases runs_pause_bind.mp h with ⟨-, rfl, -⟩ | ⟨_, -, rfl, -, -⟩ <;> rfl
    · rintro b rfl
      rcases runs_pause_bind.mp h with ⟨-, -, ⟨⟩⟩ | ⟨_, -, -, ⟨⟩, -⟩
      exact ⟨rfl, values, rfl⟩
  · exact ⟨⟨q, now, none⟩, rfl, rfl, nofun⟩
  · exact ⟨⟨q, now, some (finish, .error e)⟩, rfl, rfl, nofun⟩

/-- Settling ends with the mode that has been told last, and the bit is clear in it. -/
theorem runs_settle_ok (hr : Runs (settle level) now t (.ok mode) finish) :
    lastMode (mark .settle t) = some mode ∧ mode.testBit 1 = false := by
  rw [settle_eq] at hr
  rcases runs_send_bind hr with ⟨later, values, rest, -, rfl, h⟩ | ⟨-, -, ⟨⟩⟩ | ⟨_, -, -, ⟨⟩⟩
  cases hf : modeIn values with
  | error e =>
    rw [hf] at h
    exact absurd h.2.1 nofun
  | ok found =>
    have hx := mode?_modeRead now later hf
    rw [hf, ofMismatch_ok, pure_bind] at h
    have hleft : Runs (do clearLeftover found; return clearBit found) later rest (.ok mode) finish := h
    unfold clearLeftover at hleft
    cases hb : hasBit found with
    | false =>
      rw [hb] at hleft
      obtain ⟨rfl, hm, -⟩ := hleft
      cases hm
      rw [clearBit_of_not_hasBit hb]
      exact ⟨lastMode_told (h := []) hx, by rw [← hasBit_eq_testBit, hb]⟩
    | true =>
      rw [hb, if_pos rfl, bind_assoc] at hleft
      obtain ⟨y, rfl, hy, hok⟩ := runs_single hleft
      obtain ⟨rfl, -⟩ := hok mode rfl
      exact ⟨lastMode_told (h := [_]) (mode?_modeWrite hy), testBit_clearBit found⟩

/-- The wait for the motor ends well only if the motor has been found standing still. -/
theorem runs_pollUntilStopped {text : String} {start polls left : Nat}
    (hr : Runs (pollUntilStopped text start polls left) now t (.ok ()) finish) :
    ∃ x ∈ t, x.FoundStopped := by
  have hfound : ∀ {sent later : Nat} {values : Entries} {rest : List Exchange},
      (values.get operationalStatus).equalsInt motorStopped →
      ∃ x ∈ ⟨statusRead, sent, some (later, .ok values)⟩ :: rest, x.FoundStopped :=
    fun hs => ⟨_, List.mem_cons_self, rfl, _, rfl, hs⟩
  induction left generalizing polls now t with
  | zero =>
    obtain ⟨sent, later, values, rest, rfl, h⟩ := runs_pollOnce_bind hr
    dsimp only at h
    split at h
    · next hs => exact hfound hs
    · exact absurd h.2.1 nofun
  | succ left ih =>
    obtain ⟨sent, later, values, rest, rfl, h⟩ := runs_pollOnce_bind hr
    dsimp only at h
    split at h
    · next hs => exact hfound hs
    · split at h
      · exact absurd h.2.1 nofun
      · obtain ⟨x, hx, hs⟩ := ih h
        exact ⟨x, List.mem_cons_of_mem _ hx, hs⟩

/-- What is done for its own sake does not change what is returned. -/
theorem result_eq {α β : Type} {q : Procedure α} {a b : β} {r : Except Stop β}
    (hr : Runs (do let _ ← q; return a) now t r finish) (hb : r = .ok b) : b = a := by
  subst hb
  rcases runs_bind.mp hr with ⟨_, _, _, _, _, ⟨_, hb, _⟩, _⟩ | ⟨_, _, ⟨⟩⟩
  exact Except.ok.inj hb

theorem runs_prime {after : Int}
    (hr : Runs (Phase.prime.procedure o level mode) now t (.ok after) finish) :
    after = mode ∧ (∃ x ∈ t, x.IsCommand) ∧ ∃ x ∈ t, x.FoundStopped := by
  rcases runs_bind.mp hr with ⟨_, t₁, t₂, mid, h₁, ⟨rfl, h₂, -⟩, rfl⟩ | ⟨_, _, ⟨⟩⟩
  cases h₂
  rcases runs_request_bind h₁ with ⟨later, values, rest, -, rfl, h₃⟩ | ⟨-, -, ⟨⟩⟩ | ⟨_, -, -, ⟨⟩⟩
  obtain ⟨x, hx, hs⟩ := runs_pollUntilStopped h₃
  rw [List.append_nil]
  exact ⟨rfl, ⟨_, List.mem_cons_self, _, _, rfl⟩, x, List.mem_cons_of_mem _ hx, hs⟩

end

/-! ### Phase after phase -/

/-- The phase after a phase. -/
def Phase.next (calibrate : Bool) : Phase → Option Phase
  | settle => some base
  | base => if calibrate then some prime else some overrides
  | prime => some reset
  | reset => some enable
  | enable => some learnLower
  | learnLower => some learnRange
  | learnRange => some overrides
  | overrides => if calibrate then some finalize else none
  | finalize => none

/-- What holds when a phase begins, and in the end. -/
def Ready (calibrate : Bool) (h : History) (mode : Int) : Option Phase → Prop
  | some .settle => h = []
  | some .base => Low h mode
  | some .prime => calibrate = true ∧ Low h mode
  | some .reset => calibrate = true ∧ Low h mode ∧ Moved h ∧ Primed h
  | some .enable => calibrate = true ∧ Low h mode ∧ Moved h ∧ Primed h ∧ LimitsReset h
  | some .learnLower | some .learnRange | some .finalize => calibrate = true ∧ High h mode
  | some .overrides => if calibrate then High h mode else Low h mode
  | none => BitClear h

section
variable {given : Entries} {o : Options} {level : Level} {now finish : Nat} {t : List Exchange}
  {r : Except Stop Int}

/-- The base attributes end with the mode that has been told last. -/
theorem writeBase_last {base : Entries} {after : Int} (hlast : lastMode h = some mode)
    (hr : Runs (writeBase level mode base) now t (.ok after) finish) :
    lastMode (h ++ mark .base t) = some after := by
  induction base generalizing h mode now t with
  | nil =>
    obtain ⟨rfl, hm, -⟩ := hr
    cases hm
    simpa [mark] using hlast
  | cons e base ih =>
    obtain ⟨key, v⟩ := e
    rw [writeBase_cons] at hr
    cases hm : modeAfter mode key v with
    | error e =>
      rw [hm] at hr
      obtain ⟨-, hraised, -⟩ := hr
      cases hraised
    | ok next =>
      rw [hm, ofMismatch_ok, pure_bind] at hr
      have hr' : Runs (do
          writeOne key (if key = coveringMode then .int next else v) none
          pause settleTime
          writeBase level next base) now t (.ok after) finish := hr
      rcases runs_request_bind hr' with
        ⟨later, values, rest, -, rfl, h₁⟩ | ⟨-, -, ⟨⟩⟩ | ⟨_, -, -, ⟨⟩⟩
      rcases runs_pause_bind.mp h₁ with ⟨-, -, ⟨⟩⟩ | ⟨mid, -, h₂⟩
      rw [append_mark_cons]
      refine ih ?_ h₂
      by_cases hk : key = coveringMode
      · subst hk
        exact lastMode_told (mode?_modeWrite (by rw [if_pos rfl]; rfl))
      · rw [modeAfter, if_neg hk] at hm
        cases hm
        rw [if_neg hk, lastMode_quiet (mode?_attributeWrite hk rfl)]
        exact hlast

/-- A phase that leaves the mode alone, before the window. -/
theorem Low.phase (hl : Low h mode) (hp : p ≠ .enable ∧ p ≠ .finalize)
    (hc : p = .overrides → calibrate = false)
    (ht : ∀ x ∈ t, x.mode? = none) :
    Guarded calibrate h (mark p t) ∧ Low (h ++ mark p t) mode :=
  guarded_of_invariant (Low · mode) hl fun _ hb x hx =>
    ⟨hb.safe (keepsClear_of_quiet (ht x hx)) (fun _ => hb.bitClear) hc, hb.quiet hp (ht x hx)⟩

/-- A phase that leaves the mode alone, in the window. -/
theorem High.phase (hh : High h mode) (hp : p ≠ .base ∧ p ≠ .reset ∧ p ≠ .finalize)
    (hc : p = .overrides → calibrate = true) (ht : ∀ x ∈ t, x.mode? = none) :
    Guarded calibrate h (mark p t) ∧ High (h ++ mark p t) mode :=
  guarded_of_invariant (High · mode) hh fun _ hb x hx =>
    ⟨hb.safe ⟨hp.1, hp.2.1⟩ hc fun n hn => by simp [writtenMode?_quiet (ht x hx)] at hn,
      hb.quiet hp.2.2 (ht x hx)⟩

/-- Settling leaves the mode without the bit. -/
theorem settle_step (hr : Runs (settle level) now t r finish) :
    Guarded calibrate [] (mark .settle t) ∧
      ∀ after, r = .ok after → Low (mark .settle t) after := by
  have hasks := (Phase.sends_settle level).of_runs hr
  obtain ⟨hg, hu⟩ : Guarded calibrate [] (mark .settle t) ∧ Unset ([] ++ mark .settle t) := by
    refine guarded_of_invariant Unset .nil fun before hu x hx => ?_
    have hclear := keepsClear_of_asks (by decide) (hasks x hx)
    have hcmd := not_isCommand_of_asks rfl (hasks x hx)
    exact ⟨hu.safe hclear (by simp [hcmd]) nofun, hu.snoc (by decide) hclear⟩
  refine ⟨hg, ?_⟩
  rintro after rfl
  obtain ⟨hlast, hclear⟩ := runs_settle_ok hr
  exact ⟨hu, hlast, hclear⟩

/-- A base attribute leaves the mode without the bit. -/
theorem base_step (ho : o.Of given) (hl : Low h mode)
    (hr : Runs (writeBase level mode o.base) now t r finish) :
    Guarded calibrate h (mark .base t) ∧
      ∀ after, r = .ok after → Low (h ++ mark .base t) after := by
  have hasks := (Phase.sends_writeBase level mode ho.base_keys).of_runs hr
  obtain ⟨hg, n, hn⟩ : Guarded calibrate h (mark .base t) ∧ ∃ n, Low (h ++ mark .base t) n := by
    refine guarded_of_invariant (fun h => ∃ n, Low h n) ⟨mode, hl⟩ fun before ⟨n, hn⟩ x hx => ?_
    have hclear := keepsClear_of_asks (by decide) (hasks x hx)
    refine ⟨hn.safe hclear (fun _ => hn.bitClear) nofun, ?_⟩
    have hx' := hasks x hx
    generalize hq : x.request = q at hx'
    cases hx' with
    | baseMode m =>
      exact ⟨_, .told hn.toUnset (by decide) hclear (mode?_modeWrite hq) (testBit_clearBit m)⟩
    | base key v hk hm => exact ⟨n, hn.quiet (by decide) (mode?_attributeWrite hm hq)⟩
    | drive _ hm | poll _ hm => cases hm
  refine ⟨hg, ?_⟩
  rintro after rfl
  have hlast := writeBase_last hl.last hr
  rw [hn.last] at hlast
  cases hlast
  exact hn

/-- The first movement ends well only with the motor standing still. -/
theorem prime_step (hl : Low h mode) (hasks : ∀ x ∈ t, Phase.prime.Asks x.request)
    (hr : Runs (Phase.prime.procedure o level mode) now t r finish) :
    Guarded calibrate h (mark .prime t) ∧ ∀ after, r = .ok after →
      Low (h ++ mark .prime t) after ∧ Moved (h ++ mark .prime t) ∧ Primed (h ++ mark .prime t) := by
  obtain ⟨hg, hl'⟩ : Guarded calibrate h (mark .prime t) ∧ Low (h ++ mark .prime t) mode :=
    hl.phase (by decide) nofun fun x hx => mode?_quiet (.inl rfl) (hasks x hx)
  refine ⟨hg, ?_⟩
  rintro after rfl
  obtain ⟨rfl, ⟨x, hx, hcmd⟩, y, hy, hs⟩ := runs_prime hr
  exact ⟨hl', ⟨_, List.mem_append_right h (List.mem_map_of_mem hx), hcmd⟩,
    y, List.mem_append_right h (List.mem_map_of_mem hy), hs⟩

/-- The limits are forgotten while the bit is clear. -/
theorem reset_step (hl : Low h mode) (hr : Runs (Phase.reset.procedure o level mode) now t r finish) :
    Guarded calibrate h (mark .reset t) ∧ ∀ after, r = .ok after →
      Low (h ++ mark .reset t) after ∧ LimitsReset (h ++ mark .reset t) := by
  have hr' : Runs ((do (do let _ ← send resetWrite); pause settleTime) >>= fun _ => pure mode)
    now t r finish := hr
  rw [bind_assoc] at hr'
  obtain ⟨x, rfl, hx, hok⟩ := runs_single hr'
  obtain ⟨hg, hl'⟩ : Guarded calibrate h (mark .reset [x]) ∧ Low (h ++ mark .reset [x]) mode :=
    hl.phase (by decide) nofun (by simpa using mode?_quiet (.inr (.inl rfl)) (hx ▸ .reset))
  refine ⟨hg, fun after ha => ?_⟩
  obtain ⟨rfl, hs⟩ := hok after ha
  exact ⟨hl', x, List.mem_append_right h (List.mem_singleton_self _), hs⟩

/-- The bit is set once all is ready for it. -/
theorem enable_step (hc : calibrate = true) (hl : Low h mode) (hm : Moved h) (hp : Primed h)
    (hres : LimitsReset h) (hr : Runs (Phase.enable.procedure o level mode) now t r finish) :
    Guarded calibrate h (mark .enable t) ∧ ∀ after, r = .ok after →
      High (h ++ mark .enable t) after := by
  have hr' : Runs ((do (do let _ ← send (modeWrite (setBit mode))); pause settleTime) >>=
    fun _ => pure mode) now t r finish := hr
  rw [bind_assoc] at hr'
  obtain ⟨x, rfl, hx, hok⟩ := runs_single hr'
  refine ⟨⟨?_, trivial⟩, fun after ha => ?_⟩
  · exact {
      setting := fun _ _ _ => ⟨rfl, hc, hp, hres, hl.never⟩
      firstCommand := fun _ _ => hl.bitClear
      base := nofun
      reset := nofun
      overrides := nofun
      clearing := fun _ _ ⟨y, hy⟩ => absurd rfl (hl.early _ hy).1 }
  · obtain ⟨rfl, -⟩ := hok after ha
    exact {
      last := lastMode_told (mode?_modeWrite hx)
      moved := hm.append
      opened := by
        have hearly := fun e he => (hl.early e he).2
        simpa [mark, or_imp, forall_and] using hearly }

/-- Learning leaves the mode alone. -/
theorem learn_step (hp : p.moves) (hne : p ≠ .prime) (hh : High h mode)
    (hasks : ∀ x ∈ t, p.Asks x.request) (hkeeps : ∀ after, r = .ok after → after = mode) :
    Guarded calibrate h (mark p t) ∧ ∀ after, r = .ok after → High (h ++ mark p t) after := by
  obtain ⟨hg, hh'⟩ : Guarded calibrate h (mark p t) ∧ High (h ++ mark p t) mode := by
    refine hh.phase ?_ ?_ fun x hx => mode?_quiet (.inl hp) (hasks x hx)
    · cases p <;> simp_all [Phase.moves]
    · rintro rfl
      cases hp
  refine ⟨hg, fun after ha => ?_⟩
  obtain rfl := hkeeps after ha
  exact hh'

/-- The overrides leave the mode alone, in the window or without one. -/
theorem overrides_step (hready : Ready calibrate h mode (some .overrides))
    (hasks : ∀ x ∈ t, Phase.overrides.Asks x.request)
    (hr : Runs (Phase.overrides.procedure o level mode) now t r finish) :
    Guarded calibrate h (mark .overrides t) ∧ ∀ after, r = .ok after →
      Ready calibrate (h ++ mark .overrides t) after (Phase.overrides.next calibrate) := by
  have hquiet : ∀ x ∈ t, x.mode? = none := fun x hx => mode?_quiet (.inr (.inr rfl)) (hasks x hx)
  rw [Ready] at hready
  rw [Phase.next]
  split at hready
  · next hc =>
    obtain ⟨hg, hh⟩ := hready.phase (p := .overrides) (by decide) (fun _ => hc) hquiet
    refine ⟨hg, fun after ha => ?_⟩
    obtain rfl := result_eq hr ha
    rw [if_pos hc]
    exact ⟨hc, hh⟩
  · next hc =>
    obtain ⟨hg, hl⟩ :=
      hready.phase (p := .overrides) (by decide) (fun _ => eq_false_of_ne_true hc) hquiet
    refine ⟨hg, fun after _ => ?_⟩
    rw [if_neg hc]
    exact hl.bitClear

/-- The window is closed by one write. -/
theorem finalize_step (hh : High h mode)
    (hr : Runs (Phase.finalize.procedure o level mode) now t r finish) :
    Guarded calibrate h (mark .finalize t) ∧ ∀ after, r = .ok after →
      BitClear (h ++ mark .finalize t) := by
  rcases runs_pause_bind.mp hr with ⟨-, rfl, rfl⟩ | ⟨mid, -, h₁⟩
  · exact ⟨trivial, nofun⟩
  · have h₂ : Runs ((do (do let _ ← send (modeWrite (clearBit mode))); pause settleTime) >>=
      fun _ => pure mode) mid t r finish := h₁
    rw [bind_assoc] at h₂
    obtain ⟨x, rfl, hx, hok⟩ := runs_single h₂
    have hclear := keepsClear_of_clearBit hx
    refine ⟨⟨hh.safe ⟨nofun, nofun⟩ nofun fun n hn => ⟨rfl, hclear n hn⟩, trivial⟩, fun after ha => ?_⟩
    exact ⟨clearBit mode, lastMode_told (mode?_modeWrite hx), testBit_clearBit mode⟩

/-- What one phase keeps: its exchanges are safe, and the next phase may begin. -/
theorem phase_step (ho : o.Of given) (hready : Ready o.calibrate h mode (some p))
    (hr : Runs (p.procedure o level mode) now t r finish) :
    Guarded o.calibrate h (mark p t) ∧
      ∀ after, r = .ok after → Ready o.calibrate (h ++ mark p t) after (p.next o.calibrate) := by
  have hasks := (Phase.sends_procedure ho level mode p).of_runs hr
  cases p with
  | settle =>
    obtain rfl : h = [] := hready
    rcases runs_announce_bind hr with hsettle | ⟨rfl, rfl, -⟩
    · exact settle_step hsettle
    · exact ⟨trivial, nofun⟩
  | base =>
    obtain ⟨hg, hl⟩ := base_step (h := h) ho hready hr
    refine ⟨hg, fun after ha => ?_⟩
    rw [Phase.next]
    split
    · next hc => exact ⟨hc, hl after ha⟩
    · next hc =>
      rw [Ready, if_neg hc]
      exact hl after ha
  | prime =>
    obtain ⟨hc, hl⟩ := hready
    obtain ⟨hg, hnext⟩ := prime_step hl hasks hr
    exact ⟨hg, fun after ha => ⟨hc, hnext after ha⟩⟩
  | reset =>
    obtain ⟨hc, hl, hm, hp⟩ := hready
    obtain ⟨hg, hnext⟩ := reset_step hl hr
    refine ⟨hg, fun after ha => ?_⟩
    obtain ⟨hl', hres⟩ := hnext after ha
    exact ⟨hc, hl', hm.append, hp.append, hres⟩
  | enable =>
    obtain ⟨hc, hl, hm, hp, hres⟩ := hready
    obtain ⟨hg, hnext⟩ := enable_step hc hl hm hp hres hr
    exact ⟨hg, fun after ha => ⟨hc, hnext after ha⟩⟩
  | learnLower =>
    obtain ⟨hc, hh⟩ := hready
    obtain ⟨hg, hnext⟩ := learn_step rfl (by decide) hh hasks fun _ => result_eq hr
    exact ⟨hg, fun after ha => ⟨hc, hnext after ha⟩⟩
  | learnRange =>
    obtain ⟨hc, hh⟩ := hready
    obtain ⟨hg, hnext⟩ := learn_step rfl (by decide) hh hasks fun _ => result_eq hr
    refine ⟨hg, fun after ha => ?_⟩
    rw [Phase.next, Ready, if_pos hc]
    exact hnext after ha
  | overrides => exact overrides_step hready hasks hr
  | finalize =>
    obtain ⟨hc, hh⟩ := hready
    exact finalize_step hh hr

/-! ### A whole run -/

/-- Phases that follow one another to the end. -/
inductive Path (calibrate : Bool) : Option Phase → List Phase → Prop where
  | done : Path calibrate none []
  | cons {p : Phase} {ps : List Phase} (h : Path calibrate (p.next calibrate) ps) :
    Path calibrate (some p) (p :: ps)

theorem path_all (calibrate : Bool) : Path calibrate (some .settle) (Phase.all calibrate) := by
  cases calibrate <;> repeat constructor

theorem guarded_runs {q : Option Phase} {ps : List Phase} {m : History} (ho : o.Of given)
    (hpath : Path o.calibrate q ps) (hready : Ready o.calibrate h mode q)
    (hr : RunsPhases o level ps mode now m r finish) :
    Guarded o.calibrate h m ∧ ∀ after, r = .ok after → BitClear (h ++ m) := by
  induction hpath generalizing h mode now m with
  | done =>
    obtain ⟨rfl, rfl, -⟩ := hr
    have hend : BitClear h := hready
    exact ⟨trivial, fun _ _ => by simpa using hend⟩
  | @cons p ps hpath ih =>
    rcases hr with ⟨after, t, rest, mid, h₁, h₂, rfl⟩ | ⟨stop, t, h₁, rfl, rfl⟩
    · obtain ⟨hg, hnext⟩ := phase_step ho hready h₁
      obtain ⟨hg', hend⟩ := ih (hnext after rfl) h₂
      rw [List.append_assoc] at hend
      exact ⟨guarded_append.mpr ⟨hg, hg'⟩, hend⟩
    · exact ⟨(phase_step ho hready h₁).1, nofun⟩

/-- A run ends with reads. -/
theorem sends_conclude (start : Nat) :
    Sends (fun q => ∃ names manufacturer, q = .read .windowCovering names manufacturer)
      (conclude o start) := by
  refine (asks_conclude o start).mono fun q hq => ?_
  cases hq <;> exact ⟨_, _, rfl⟩

end

theorem Guarded.safe {before after : History} (hg : Guarded calibrate h (before ++ (p, x) :: after)) :
    Safe calibrate (h ++ before) p x :=
  (guarded_append.mp hg).2.1

/-- However a run for checked options goes and wherever it breaks off, each of its requests is safe
after those before it, and a run that returns a report leaves the bit clear. -/
theorem calibration_bit_guarded {given : Value} {o : Options} {verbose : Bool} {now finish : Nat}
    {t : List Exchange} {r : Except Stop Entries} (ho : (validate given).outcome = .ok o)
    (hr : Runs (configureRaw given verbose) now t r finish) :
    ∃ m rest r' mid, t = m.map Prod.snd ++ rest ∧
      RunsPhases o (Level.ofVerbose verbose) (Phase.all o.calibrate) 0 now m r' mid ∧
      (∀ x ∈ rest, ∃ names manufacturer, x.request = .read .windowCovering names manufacturer) ∧
      (∀ before p x after, m = before ++ (p, x) :: after → Safe o.calibrate before p x) ∧
      ∀ report, r = .ok report → BitClear m := by
  obtain ⟨entries, rfl, hof⟩ := validate_ok ho
  obtain ⟨m, rest, r', mid, rfl, hm, hend⟩ := runs_configureRaw ho hr
  obtain ⟨hg, hclear⟩ := guarded_runs (h := []) hof (path_all o.calibrate) rfl hm
  refine ⟨m, rest, r', mid, rfl, hm, ?_, ?_, ?_⟩
  · rcases hend with ⟨mode, rfl, hc⟩ | ⟨stop, rfl, rfl, rfl, rfl⟩
    · exact (sends_conclude now).of_runs hc
    · simp
  · rintro before p x after rfl
    exact hg.safe
  · rintro report rfl
    rcases hend with ⟨mode, rfl, hc⟩ | ⟨stop, rfl, ⟨⟩, -, -⟩
    exact hclear mode rfl

theorem configureRaw_of_validate {given : Value} {o : Options} {verbose : Bool}
    (h : validate given = ⟨[], .ok o⟩) : configureRaw given verbose = configure o verbose := by
  rw [configureRaw, h]
  rfl

/-- A request for a calibration with one override. -/
def calibrationOf100 : Value := .dict [(calibrateKey, .bool true), (totalSteps, .int 100)]

theorem validate_calibrationOf100 : validate calibrationOf100 =
    ⟨[], .ok { flag := .bool true, overrides := [(totalSteps, .int 100)] }⟩ :=
  (validate_of_known (by decide)).trans rfl

/-- A device that answers zero to everything. -/
def zeros : Script := ⟨[], [], [], [], []⟩

theorem runs_calibrationOf100 : ∃ t report finish,
    Runs (configureRaw calibrationOf100 false) 0 t (.ok report) finish := by
  rw [configureRaw_of_validate validate_calibrationOf100]
  obtain ⟨t, hr, -⟩ := record_runs 0 zeros
    (configure { flag := .bool true, overrides := [(totalSteps, .int 100)] } false)
  exact ⟨t, _, _, hr⟩

theorem calibration_bit_guarded_zeros : ∃ o t report finish,
    (validate calibrationOf100).outcome = .ok o ∧
    Runs (configureRaw calibrationOf100 false) 0 t (.ok report) finish ∧
    ∃ m rest r' mid, t = m.map Prod.snd ++ rest ∧
      RunsPhases o (Level.ofVerbose false) (Phase.all o.calibrate) 0 0 m r' mid ∧
      (∀ x ∈ rest, ∃ names manufacturer, x.request = .read .windowCovering names manufacturer) ∧
      (∀ before p x after, m = before ++ (p, x) :: after → Safe o.calibrate before p x) ∧
      BitClear m := by
  have ho := congrArg Logged.outcome validate_calibrationOf100
  obtain ⟨t, report, finish, hr⟩ := runs_calibrationOf100
  obtain ⟨m, rest, r', mid, ht, hm, hrest, hsafe, hend⟩ := calibration_bit_guarded ho hr
  exact ⟨_, t, report, finish, ho, hr, m, rest, r', mid, ht, hm, hrest, hsafe, hend report rfl⟩

/-- An override is written while the bit is set if there is a calibration around it. -/
theorem override_inside_window : ∃ before after,
    ((configureRaw calibrationOf100 false).record zeros 0).calls.map Prod.snd =
      before ++ attributeWrite totalSteps (.int 100) (some manufacturerCode) :: after ∧
    (before.filterMap Request.writtenMode?).getLast? = some 2 ∧ Int.testBit 2 1 = true := by
  refine ⟨[modeRead, .command .windowCovering Command.upOpen, statusRead, resetWrite, modeWrite 2,
    .command .windowCovering Command.downClose, .command .windowCovering Command.stop,
    .command .windowCovering Command.upOpen, statusRead,
    .command .windowCovering Command.downClose, statusRead,
    .command .windowCovering Command.upOpen, statusRead],
    [modeWrite 0, .read .windowCovering geometryAttributes none,
    .read .windowCovering statusAttributes none,
    .read .windowCovering vendorAttributes (some manufacturerCode)], ?_, rfl, rfl⟩
  rw [configureRaw_of_validate validate_calibrationOf100]
  rfl

end Commissioning.Covering

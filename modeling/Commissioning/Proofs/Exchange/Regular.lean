import Commissioning.Proofs.Exchange.Faults
import Commissioning.Proofs.Exchange.Waits

/-!
Regular procedures. A request that fails ends such a procedure, unless its failure is one that is
absorbed, and the clock only serves to tell how much time has passed. The second half is seen on two
copies that start at two times and go on side by side:

    at b    ask q ── values ──▶ … clock b + n ──▶ … done a
                └─── failure ─▶ fail
    at b'   ask q ── values ──▶ … clock b' + n ─▶ … done a
                └─── failure ─▶ fail
-/
namespace Commissioning.Procedure
variable {α β : Type} {Raises Raises' : Fault → Prop} {Absorbs : Request → Fault → Prop} {b b' : Nat}
  {p p' : Procedure α} {f f' : α → Procedure β}

/-- A procedure and its copy for another start go on side by side, and a request that fails ends
both. `Raises` has the faults that they may end with by themselves, `Absorbs` the failures of requests
after which they may go on. -/
inductive Regular (Raises : Fault → Prop) (Absorbs : Request → Fault → Prop) (b b' : Nat) :
    Procedure α → Procedure α → Prop where
  | done (a : α) : Regular Raises Absorbs b b' (.done a) (.done a)
  | fail (e : Fault) (he : Raises e) : Regular Raises Absorbs b b' (.fail e) (.fail e)
  | exchange (q : Request) (Absorbed : Fault → Prop) {next next' : Outcome Entries → Procedure α}
    (few : ∀ e, Absorbed e → Absorbs q e)
    (good : ∀ values, Regular Raises Absorbs b b' (next (.ok values)) (next' (.ok values)))
    (absorbed : ∀ e, Absorbed e → Regular Raises Absorbs b b' (next (.error e)) (next' (.error e)))
    (bad : ∀ e, ¬ Absorbed e → next (.error e) = .fail e ∧ next' (.error e) = .fail e) :
    Regular Raises Absorbs b b' (.ask (.exchange q) next) (.ask (.exchange q) next')
  | pause (ms : Nat) {next next' : Unit → Procedure α}
    (rest : Regular Raises Absorbs b b' (next ()) (next' ())) :
    Regular Raises Absorbs b b' (.ask (.pause ms) next) (.ask (.pause ms) next')
  | clock {next next' : Nat → Procedure α}
    (rest : ∀ n, Regular Raises Absorbs b b' (next (b + n)) (next' (b' + n))) :
    Regular Raises Absorbs b b' (.ask .clock next) (.ask .clock next')
  | log (lines : Log) {next next' : Unit → Procedure α}
    (rest : Regular Raises Absorbs b b' (next ()) (next' ())) :
    Regular Raises Absorbs b b' (.ask (.log lines) next) (.ask (.log lines) next')

/-- Regular, whatever its checks say. -/
abbrev Steady (Absorbs : Request → Fault → Prop) (b b' : Nat) (p p' : Procedure α) : Prop :=
  Regular (fun _ => True) Absorbs b b' p p'

/-! ### How regular procedures are made -/

theorem regular_bind (hp : Regular Raises Absorbs b b' p p')
    (hf : ∀ a, Regular Raises Absorbs b b' (f a) (f' a)) :
    Regular Raises Absorbs b b' (p >>= f) (p' >>= f') := by
  change Regular Raises Absorbs b b' (p.bind f) (p'.bind f')
  induction hp with
  | done a => exact hf a
  | fail e he => exact .fail e he
  | exchange q Absorbed few _ _ bad good absorbed =>
    refine .exchange q Absorbed few good absorbed fun e he => ?_
    obtain ⟨hnext, hnext'⟩ := bad e he
    rw [hnext, hnext']
    exact ⟨rfl, rfl⟩
  | pause ms _ ih => exact .pause ms ih
  | clock _ ih => exact .clock ih
  | log lines _ ih => exact .log lines ih

theorem regular_pure (a : α) : Regular Raises Absorbs b b' (pure a) (pure a) := .done a

theorem regular_pause (ms : Nat) : Regular Raises Absorbs b b' (pause ms) (pause ms) :=
  .pause ms (.done ())

theorem regular_log (lines : Log) : Regular Raises Absorbs b b' (log lines) (log lines) :=
  .log lines (.done ())

theorem regular_note (level : Level) (message : String) (entries : Entries) :
    Regular Raises Absorbs b b' (note level message entries) (note level message entries) :=
  regular_log _

theorem regular_clock_bind {g g' : Nat → Procedure β}
    (h : ∀ n, Regular Raises Absorbs b b' (g (b + n)) (g' (b' + n))) :
    Regular Raises Absorbs b b' (clock >>= g) (clock >>= g') := .clock h

theorem regular_ofOutcome {o : Outcome α} (ho : ∀ e, o = .error e → Raises e) :
    Regular Raises Absorbs b b' (.ofOutcome o) (.ofOutcome o) := by
  cases o with
  | ok a => exact .done a
  | error e => exact .fail e (ho e rfl)

theorem regular_ofLogged {l : Logged α} (hl : ∀ e, l.outcome = .error e → Raises e) :
    Regular Raises Absorbs b b' (ofLogged l) (ofLogged l) := by
  unfold ofLogged
  split
  · exact .log _ (regular_ofOutcome hl)
  · exact regular_ofOutcome hl

theorem regular_send (q : Request) : Regular Raises Absorbs b b' (send q) (send q) :=
  .exchange q (fun _ => False) nofun .done nofun fun _ _ => ⟨rfl, rfl⟩

theorem regular_request (q : Request) :
    Regular Raises Absorbs b b' (do let _ ← send q) (do let _ ← send q) :=
  regular_bind (regular_send q) fun _ => regular_pure ()

theorem Regular.mono (h : Regular Raises Absorbs b b' p p') (hr : ∀ e, Raises e → Raises' e) :
    Regular Raises' Absorbs b b' p p' := by
  induction h with
  | done a => exact .done a
  | fail e he => exact .fail e (hr e he)
  | exchange q Absorbed few _ _ bad good absorbed => exact .exchange q Absorbed few good absorbed bad
  | pause ms _ ih => exact .pause ms ih
  | clock _ ih => exact .clock ih
  | log lines _ ih => exact .log lines ih

/-! ### What a regular procedure does -/

/-- Whatever the answer to a request is, two copies that put it go on side by side. -/
theorem Regular.answered {q : Request} {next next' : Outcome Entries → Procedure α}
    (h : Steady Absorbs b b' (.ask (.exchange q) next) (.ask (.exchange q) next'))
    (answer : Outcome Entries) : Steady Absorbs b b' (next answer) (next' answer) := by
  cases h with
  | exchange _ Absorbed few good absorbed bad =>
    cases answer with
    | ok values => exact good values
    | error e =>
      by_cases he : Absorbed e
      · exact absorbed e he
      · obtain ⟨hnext, hnext'⟩ := bad e he
        rw [hnext, hnext']
        exact .fail e trivial

/-- Past the checks of its request, a regular procedure does not turn the request down any more. -/
theorem Regular.accepts (h : Regular (¬ ·.IsRejection) (fun _ _ => True) 0 0 p p') :
    p.Accepts := by
  induction h with
  | done a => trivial
  | fail e he => exact he
  | exchange q Absorbed _ _ _ bad good absorbed =>
    intro answer hanswer
    cases answer with
    | ok values => exact good values
    | error e =>
      by_cases he : Absorbed e
      · exact absorbed e he
      · rw [(bad e he).1]
        exact accepted_error.mp hanswer
  | pause ms _ ih => exact ih
  | clock _ ih =>
    intro n
    have hn := ih n
    rwa [Nat.zero_add] at hn
  | log lines _ ih => exact ih

/-- A request that fails is the last thing that a run does, and its failure is what the run raises,
unless the failure is one that is absorbed. -/
theorem Regular.raised {now finish : Nat} {before after : List Wait} {x : Wait} {q : Request}
    {e : Fault} {r : Except Stop α} (h : Regular Raises Absorbs 0 0 p p')
    (hrun : Takes p now (before ++ x :: after) r finish) (hx : x.FailsWith q e)
    (he : ¬ Absorbs q e) : after = [] ∧ r = .error (.raised e) := by
  obtain ⟨sent, later, rfl⟩ := hx
  induction h generalizing now before with
  | done a => simp [Takes] at hrun
  | fail e _ => simp [Takes] at hrun
  | exchange q' Absorbed few _ _ bad good absorbed =>
    cases before with
    | nil =>
      rcases hrun with ⟨-, hw, -⟩ | ⟨_, _, _, -, hw, hrun⟩
      · cases hw
      · cases hw
        rw [(bad e (mt (few e) he)).1] at hrun
        exact ⟨hrun.1, hrun.2.1⟩
    | cons y before =>
      obtain ⟨later, answer, -, rfl, hnext⟩ := takes_exchange_cons hrun
      cases answer with
      | ok values => exact good values hnext
      | error e' =>
        by_cases he' : Absorbed e'
        · exact absorbed e' he' hnext
        · rw [(bad e' he').1] at hnext
          simp [Takes] at hnext
  | pause ms _ ih =>
    cases before with
    | nil =>
      have hopened := opened_of_pause hrun
      cases hopened
    | cons y before =>
      obtain ⟨later, -, rfl, hnext⟩ := takes_pause_cons hrun
      exact ih hnext
  | clock _ ih =>
    rw [← Nat.zero_add now] at hrun
    exact ih now hrun
  | log lines _ ih => exact ih hrun

end Commissioning.Procedure

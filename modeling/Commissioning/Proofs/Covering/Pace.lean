import Commissioning.Proofs.Covering.Window
import Commissioning.Proofs.Exchange.Orderly

/-!
The pace of a run. A request is judged by what was exchanged before it and by how long ago that was:
the motor is set in motion only from rest, nothing is written while it may run, and what changes how
the device behaves is given time to take effect.

    write mode ─2 s─ write limits ─2 s─ …           a write settles
    up_open ─2 s─ status? ─2 s─ status 0 ─2 s─ …    the motor is found standing still
    down_close ─5 s─ stop ─2 s─ up_open             or is stopped

Every phase begins and ends `Idle`: whatever has been set in motion was found standing still, and the
last write has settled.
-/
namespace Commissioning
open Covering (baseAttributes attributeWrite resetWrite settleTime sampleTime)

/-- The command that a request sends. -/
def Request.command? : Request → Option String
  | .command _ name => some name
  | _ => none

/-- Whether a request writes attributes. -/
def Request.IsWrite : Request → Prop
  | .write .. | .writeStructured .. => True
  | _ => False

namespace Exchange

/-- Whether an exchange has been over for some time. -/
def OverFor (x : Exchange) (ms now : Nat) : Prop :=
  ∃ done answer, x.reply = some (done, answer) ∧ done + ms ≤ now

/-- Whether an exchange sets the motor in motion. -/
def Moves (x : Exchange) : Prop :=
  x.request.command? = some Command.upOpen ∨ x.request.command? = some Command.downClose

/-- Whether an exchange stops the motor. -/
def Stops (x : Exchange) : Prop := x.request.command? = some Command.stop

/-- Whether an exchange shows that the motor does not run any more: it was found standing still, or it
has been stopped. -/
def ShowsRest (x : Exchange) : Prop := x.FoundStopped ∨ x.Stops ∧ x.Succeeded

/-- Whether an exchange writes what takes time to settle: a base attribute, or limits and steps. -/
def Settles (x : Exchange) : Prop :=
  (∃ key ∈ baseAttributes, ∃ v, x.request = attributeWrite key v none) ∨ x.request = resetWrite

theorem OverFor.mono {x : Exchange} {ms now later : Nat} (hx : x.OverFor ms now) (hl : now ≤ later) :
    x.OverFor ms later := by
  obtain ⟨done, answer, hreply, hdone⟩ := hx
  exact ⟨done, answer, hreply, Nat.le_trans hdone hl⟩

/-- What is over has been over for a while when some time has passed. -/
theorem OverFor.wait {x : Exchange} {ms now later : Nat} (hx : x.OverFor 0 now)
    (hl : now + ms ≤ later) : x.OverFor ms later := by
  obtain ⟨done, answer, hreply, hdone⟩ := hx
  exact ⟨done, answer, hreply, by omega⟩

end Exchange

namespace Covering
open Attribute Procedure
variable {h : List Exchange} {x : Exchange} {q : Request} {now later : Nat}
  {P P' : Exchange → Prop}

/-- The commands among some exchanges. -/
def commandsOf (h : List Exchange) : List String := h.filterMap fun x => x.request.command?

/-- After every movement something has shown `P`, and that was over a while ago. -/
def AtRest (P : Exchange → Prop) (h : List Exchange) (now : Nat) : Prop :=
  ∀ before x mid, h = before ++ x :: mid → x.Moves → ∃ z ∈ mid, P z ∧ z.OverFor settleTime now

/-- The last write has settled. -/
def Settled (h : List Exchange) (now : Nat) : Prop :=
  ∀ x, h.getLast? = some x → x.Settles → x.OverFor settleTime now

/-- What has to hold when a request is sent, given all that was exchanged before. -/
structure Paced (before : List Exchange) (x : Exchange) : Prop where
  /-- The motor is set in motion only from rest. -/
  moves : x.Moves → AtRest Exchange.ShowsRest before x.sent
  /-- Nothing is written while the motor may run. -/
  writes : x.request.IsWrite → AtRest Exchange.FoundStopped before x.sent
  settled : Settled before x.sent
  /-- The motor is stopped after a short travel down. -/
  stops : x.Stops → ∃ y, before.getLast? = some y ∧
    y.request.command? = some Command.downClose ∧ y.OverFor sampleTime x.sent

/-- Everything is over, and the last write has settled. -/
structure Calm (h : List Exchange) (now : Nat) : Prop where
  ended : ∀ x ∈ h, x.OverFor 0 now
  settled : Settled h now

/-- What has been set in motion was found standing still since. -/
structure Idle (h : List Exchange) (now : Nat) : Prop extends Calm h now where
  stopped : AtRest Exchange.FoundStopped h now

/-! ### What has been over for a while -/

theorem AtRest.wait (hr : AtRest P h now) (hl : now ≤ later) : AtRest P h later := by
  intro before x mid heq hm
  obtain ⟨z, hz, hp, hover⟩ := hr before x mid heq hm
  exact ⟨z, hz, hp, hover.mono hl⟩

theorem AtRest.mono (hr : AtRest P h now) (hp : ∀ z, P z → P' z) : AtRest P' h now := by
  intro before x mid heq hm
  obtain ⟨z, hz, hz', hover⟩ := hr before x mid heq hm
  exact ⟨z, hz, hp z hz', hover⟩

/-- An exchange in a longer history is the last one, or stands in the history before. -/
theorem snoc_cases {before mid : List Exchange} {x y : Exchange} (e : h ++ [x] = before ++ y :: mid) :
    y = x ∨ ∃ mid', mid = mid' ++ [x] ∧ h = before ++ y :: mid' := by
  rcases List.eq_nil_or_concat mid with rfl | ⟨mid', z, rfl⟩
  · exact .inl (List.singleton_inj.mp (List.append_inj_right' e rfl)).symm
  · rw [List.concat_eq_append, ← List.cons_append, ← List.append_assoc] at e
    obtain ⟨hh, hz⟩ := List.append_inj' e rfl
    obtain rfl := List.singleton_inj.mp hz
    exact .inr ⟨mid', List.concat_eq_append, hh⟩

theorem AtRest.snoc (hr : AtRest P h now) (hx : ¬ x.Moves) : AtRest P (h ++ [x]) now := by
  intro before y mid heq hm
  rcases snoc_cases heq with rfl | ⟨mid', rfl, hh⟩
  · exact absurd hm hx
  · obtain ⟨z, hz, hp, hover⟩ := hr before y mid' hh hm
    exact ⟨z, List.mem_append_left [x] hz, hp, hover⟩

/-- What is shown last is shown after every movement. -/
theorem atRest_of_last (hp : P x) (hover : x.OverFor settleTime now) (hx : ¬ x.Moves) :
    AtRest P (h ++ [x]) now := by
  intro before y mid heq hm
  rcases snoc_cases heq with rfl | ⟨mid', rfl, -⟩
  · exact absurd hm hx
  · exact ⟨x, List.mem_append_right mid' (List.mem_singleton_self x), hp, hover⟩

theorem not_moves_stop {cluster : Cluster} {sent : Nat} {reply : Option (Nat × Outcome Entries)} :
    ¬ Exchange.Moves ⟨.command cluster Command.stop, sent, reply⟩ := by
  simp [Exchange.Moves, Request.command?, Command.stop, Command.upOpen, Command.downClose]

theorem rest_of_stop {cluster : Cluster} {sent : Nat} {values : Entries}
    (hl : now + settleTime ≤ later) :
    AtRest Exchange.ShowsRest (h ++ [⟨.command cluster Command.stop, sent, some (now, .ok values)⟩])
      later :=
  atRest_of_last (.inr ⟨rfl, values, rfl⟩) ⟨now, _, rfl, hl⟩ not_moves_stop

theorem Settled.wait (hs : Settled h now) (hl : now ≤ later) : Settled h later :=
  fun x hx hw => (hs x hx hw).mono hl

theorem settled_snoc (hx : x.Settles → x.OverFor settleTime now) : Settled (h ++ [x]) now := by
  intro y hy hw
  rw [List.getLast?_concat] at hy
  cases hy
  exact hx hw

theorem Calm.wait (hc : Calm h now) (hl : now ≤ later) : Calm h later :=
  ⟨fun x hx => (hc.ended x hx).mono hl, hc.settled.wait hl⟩

theorem Idle.wait (hr : Idle h now) (hl : now ≤ later) : Idle h later :=
  ⟨hr.toCalm.wait hl, hr.stopped.wait hl⟩

theorem Calm.snoc {finish : Nat} {answer : Outcome Entries} (hc : Calm h now) (hl : now ≤ later)
    (hf : later ≤ finish) (hx : Exchange.Settles ⟨q, now, some (later, answer)⟩ →
      later + settleTime ≤ finish) :
    Calm (h ++ [⟨q, now, some (later, answer)⟩]) finish where
  ended := by
    simp only [List.mem_append, List.mem_singleton, or_imp, forall_and, forall_eq]
    exact ⟨fun x hx => (hc.ended x hx).mono (Nat.le_trans hl hf), later, answer, rfl, hf⟩
  settled := settled_snoc fun hw => ⟨later, answer, rfl, hx hw⟩

theorem Idle.snoc {finish : Nat} {answer : Outcome Entries} (hr : Idle h now) (hl : now ≤ later)
    (hf : later ≤ finish) (hx : Exchange.Settles ⟨q, now, some (later, answer)⟩ →
      later + settleTime ≤ finish) (hq : q.command? = none) :
    Idle (h ++ [⟨q, now, some (later, answer)⟩]) finish where
  toCalm := hr.toCalm.snoc hl hf hx
  stopped := (hr.stopped.wait (Nat.le_trans hl hf)).snoc (by simp [Exchange.Moves, hq])

/-! ### Requests that fit -/

theorem commandsOf_snoc (h : List Exchange) (x : Exchange) :
    commandsOf (h ++ [x]) = commandsOf h ++ x.request.command?.toList := by
  cases hx : x.request.command? <;> simp [commandsOf, hx]

theorem paced_read {cluster : Cluster} {names : List String} {manufacturer : Option Int}
    (hs : Settled h now) (reply : Option (Nat × Outcome Entries)) :
    Paced h ⟨.read cluster names manufacturer, now, reply⟩ where
  moves hm := by simp [Exchange.Moves, Request.command?] at hm
  writes := False.elim
  settled := hs
  stops hstop := by simp [Exchange.Stops, Request.command?] at hstop

theorem paced_write {cluster : Cluster} {values : Entries} {manufacturer : Option Int}
    (hr : Idle h now) (reply : Option (Nat × Outcome Entries)) :
    Paced h ⟨.write cluster values manufacturer, now, reply⟩ where
  moves hm := by simp [Exchange.Moves, Request.command?] at hm
  writes _ := hr.stopped
  settled := hr.settled
  stops hstop := by simp [Exchange.Stops, Request.command?] at hstop

theorem paced_move {cluster : Cluster} {name : String} (hrest : AtRest Exchange.ShowsRest h now)
    (hs : Settled h now) (hname : name ≠ Command.stop) (reply : Option (Nat × Outcome Entries)) :
    Paced h ⟨.command cluster name, now, reply⟩ where
  moves _ := hrest
  writes := False.elim
  settled := hs
  stops hstop := by simp [Exchange.Stops, Request.command?, hname] at hstop

theorem paced_stop {cluster : Cluster} {y : Exchange} (hs : Settled h now)
    (hlast : h.getLast? = some y) (hy : y.request.command? = some Command.downClose)
    (hover : y.OverFor sampleTime now) (reply : Option (Nat × Outcome Entries)) :
    Paced h ⟨.command cluster Command.stop, now, reply⟩ where
  moves hm := absurd hm not_moves_stop
  writes := False.elim
  settled := hs
  stops _ := ⟨y, hlast, hy, hover⟩

theorem not_settles_read {cluster : Cluster} {names : List String} {manufacturer : Option Int}
    {sent : Nat} {reply : Option (Nat × Outcome Entries)} :
    ¬ Exchange.Settles ⟨.read cluster names manufacturer, sent, reply⟩ := by
  simp [Exchange.Settles, attributeWrite, resetWrite]

theorem not_settles_command {cluster : Cluster} {name : String} {sent : Nat}
    {reply : Option (Nat × Outcome Entries)} :
    ¬ Exchange.Settles ⟨.command cluster name, sent, reply⟩ := by
  simp [Exchange.Settles, attributeWrite, resetWrite]

theorem not_settles_override {key : String} {v : Value} {sent : Nat}
    {reply : Option (Nat × Outcome Entries)} :
    ¬ Exchange.Settles ⟨attributeWrite key v (some manufacturerCode), sent, reply⟩ := by
  simp [Exchange.Settles, attributeWrite, resetWrite, resetValues]

/-! ### Parts of a run -/

/-- How a part of a run ends that has sent some commands. -/
structure Leaves (sent : List String) (h h' : List Exchange) (now : Nat) : Prop where
  idle : Idle h' now
  commands : commandsOf h' = commandsOf h ++ sent

/-- A part of a run that keeps the pace and ends idle after some commands. -/
abbrev KeepsPace {α : Type} (sent : List String) (p : Procedure α) (now : Nat) (h : List Exchange) :
    Prop :=
  Proceeds Paced p now h fun _ later h' => Leaves sent h h' later

section
variable {α β : Type} {sent sent' : List String} {cluster : Cluster} {manufacturer : Option Int}

theorem Idle.rest (hi : Idle h now) : AtRest Exchange.ShowsRest h now :=
  hi.stopped.mono fun _ hz => .inl hz

theorem Idle.leaves (hi : Idle h now) : Leaves [] h h now := ⟨hi, (List.append_nil _).symm⟩

theorem KeepsPace.bind {p : Procedure α} {f : α → Procedure β} (hp : KeepsPace sent p now h)
    (hf : ∀ a later h', Idle h' later → KeepsPace sent' (f a) later h') :
    KeepsPace (sent ++ sent') (p >>= f) now h := by
  refine proceeds_bind (hp.mono fun a later h₁ h₁' => (hf a later h₁ h₁'.idle).mono ?_)
  intro b finish h₂ h₂'
  exact ⟨h₂'.idle, by rw [h₂'.commands, h₁'.commands, List.append_assoc]⟩

theorem KeepsPace.quiet {p : Procedure α} {f : α → Procedure β} (hp : KeepsPace [] p now h)
    (hf : ∀ a later h', Idle h' later → KeepsPace sent' (f a) later h') :
    KeepsPace sent' (p >>= f) now h := hp.bind hf

/-- What is returned does not matter. -/
theorem KeepsPace.andReturn {p : Procedure Unit} {a : α} (hp : KeepsPace sent p now h) :
    KeepsPace sent (do p; return a) now h :=
  proceeds_bind (hp.mono fun _ _ _ hleaves => proceeds_pure hleaves)

theorem keepsPace_pure {a : α} (hi : Idle h now) : KeepsPace [] (pure a : Procedure α) now h :=
  proceeds_pure hi.leaves

theorem keepsPace_note {level : Level} {message : String} {entries : Entries} (hi : Idle h now) :
    KeepsPace [] (note level message entries) now h := proceeds_note hi.leaves

theorem keepsPace_ofMismatch {r : Except Mismatch α} (hi : Idle h now) :
    KeepsPace [] (.ofMismatch r) now h := proceeds_ofOutcome fun _ _ => hi.leaves

theorem keepsPace_read {names : List String} (hi : Idle h now) :
    KeepsPace [] (read cluster names manufacturer) now h :=
  proceeds_send (paced_read hi.settled) fun later _ hl =>
    ⟨hi.snoc hl (Nat.le_refl later) (absurd · not_settles_read) rfl, commandsOf_snoc h _⟩

/-- An override takes effect at once. -/
theorem keepsPace_override {key : String} {v : Value} (hi : Idle h now) :
    KeepsPace [] (writeOne key v (some manufacturerCode)) now h :=
  proceeds_request (paced_write hi) fun later _ hl =>
    ⟨hi.snoc hl (Nat.le_refl later) (absurd · not_settles_override) rfl, commandsOf_snoc h _⟩

/-- Every other write is given the time that it takes to settle. -/
theorem keepsPace_settling {values : Entries} (hi : Idle h now) :
    KeepsPace [] (do Procedure.write cluster values manufacturer; pause settleTime) now h := by
  refine proceeds_bind (proceeds_request (paced_write hi) fun later values hl => ?_)
  exact proceeds_pause fun finish hf =>
    ⟨hi.snoc hl (by omega) (fun _ => hf) rfl, commandsOf_snoc h _⟩

theorem proceeds_pollOnce {start : Nat} {Q : Value × Nat → Nat → List Exchange → Prop}
    (hc : Calm h now)
    (hq : ∀ sent later values, now ≤ sent → sent ≤ later →
      Q (values.get operationalStatus, later - start) later
        (h ++ [⟨statusRead, sent, some (later, .ok values)⟩])) :
    Proceeds Paced (pollOnce start) now h Q := by
  refine proceeds_bind (proceeds_pause fun sent hsent => ?_)
  have hnow : now ≤ sent := by omega
  refine proceeds_bind (proceeds_send (paced_read (hc.settled.wait hnow)) fun later values hl => ?_)
  exact proceeds_bind (proceeds_clock (proceeds_pure (hq sent later values hnow hl)))

/-- The motor stands still and is given the time to settle. -/
theorem proceeds_stopped {asked finish polls elapsed : Nat} {text : String} {values : Entries}
    (hc : Calm h now) (hasked : now ≤ asked) (hl : asked ≤ finish)
    (hs : (values.get operationalStatus).equalsInt motorStopped) :
    Proceeds Paced (do
        .log [⟨.debug,
          s!"Motor stopped during {text} after {polls + 1} polls ({tenthsText (tenthsOf elapsed)}s)"⟩]
        .pause settleTime) finish (h ++ [⟨statusRead, asked, some (finish, .ok values)⟩])
      fun _ later h' => Leaves [] h h' later := by
  refine proceeds_bind (proceeds_log (proceeds_pause fun later hlater => ?_))
  refine ⟨⟨(hc.wait hasked).snoc hl (by omega) (absurd · not_settles_read), ?_⟩,
    commandsOf_snoc h _⟩
  exact atRest_of_last ⟨rfl, values, rfl, hs⟩ ⟨finish, _, rfl, hlater⟩
    (by simp [Exchange.Moves, statusRead, Request.command?])

/-- The wait for the motor only ends well with the motor at rest. -/
theorem keepsPace_pollUntilStopped {text : String} {start polls left : Nat} (hc : Calm h now) :
    KeepsPace [] (pollUntilStopped text start polls left) now h := by
  induction left generalizing polls now h with
  | zero =>
    refine proceeds_bind (proceeds_pollOnce hc fun asked later values hasked hl => ?_)
    dsimp only
    split
    · next hs => exact proceeds_stopped hc hasked hl hs
    · exact proceeds_fail
  | succ left ih =>
    refine proceeds_bind (proceeds_pollOnce hc fun asked later values hasked hl => ?_)
    dsimp only
    split
    · next hs => exact proceeds_stopped hc hasked hl hs
    · split
      · exact proceeds_fail
      · have hnext : Calm (h ++ [⟨statusRead, asked, some (later, .ok values)⟩]) later :=
          (hc.wait hasked).snoc hl (Nat.le_refl later) (absurd · not_settles_read)
        refine (ih hnext).mono fun _ finish h' hleaves => ⟨hleaves.idle, ?_⟩
        rw [hleaves.commands, commandsOf_snoc]
        simp [statusRead, Request.command?]

/-- A travel until the motor stands still. -/
theorem keepsPace_travel {name text : String} (hrest : AtRest Exchange.ShowsRest h now)
    (hc : Calm h now) (hname : name ≠ Command.stop) :
    KeepsPace [name] (do drive name; awaitStop text) now h := by
  refine proceeds_bind (proceeds_request (paced_move hrest hc.settled hname)
    fun later values hl => proceeds_bind (proceeds_clock ?_))
  have hmoved : Calm (h ++ [⟨.command .windowCovering name, now, some (later, .ok values)⟩]) later :=
    hc.snoc hl (Nat.le_refl later) (absurd · not_settles_command)
  refine (keepsPace_pollUntilStopped hmoved).mono fun _ _ _ hleaves => ⟨hleaves.idle, ?_⟩
  rw [hleaves.commands, commandsOf_snoc, List.append_nil]
  rfl

end

/-! ### The phases -/

section
variable {o : Options} {level : Level} {mode : Int}

/-- The commands that a phase sends. -/
def Phase.commands : Phase → List String
  | .prime => [Command.upOpen]
  | .learnLower => [Command.downClose, Command.stop, Command.upOpen]
  | .learnRange => [Command.downClose, Command.upOpen]
  | _ => []

theorem keepsPace_announce (hi : Idle h now) : KeepsPace [] (announce o) now h := by
  rcases announce_cases o with ho | ⟨ho, -⟩
  · rw [ho]
    exact proceeds_log hi.leaves
  · rw [ho]
    exact proceeds_fail

theorem keepsPace_settle (hi : Idle h now) : KeepsPace [] (settle level) now h := by
  rw [settle_eq]
  refine (keepsPace_read hi).quiet fun values _ _ hi => ?_
  refine (keepsPace_ofMismatch hi).quiet fun mode _ _ hi => ?_
  refine (keepsPace_note hi).quiet fun _ _ _ hi => KeepsPace.andReturn ?_
  unfold clearLeftover
  split
  · exact keepsPace_settling hi
  · exact keepsPace_pure hi

theorem keepsPace_writeBase {base : Entries} (hi : Idle h now) :
    KeepsPace [] (writeBase level mode base) now h := by
  induction base generalizing mode now h with
  | nil => exact keepsPace_pure hi
  | cons e base ih =>
    obtain ⟨key, v⟩ := e
    rw [writeBase_cons]
    refine (keepsPace_ofMismatch hi).quiet fun after _ _ hi => ?_
    refine (keepsPace_note hi).quiet fun _ _ _ hi => ?_
    rw [← bind_assoc]
    exact (keepsPace_settling hi).quiet fun _ _ _ hi => ih hi

/-- The short travel down ends with a stop; nothing has to be asked before the way up. -/
theorem keepsPace_learnLowerBound (hi : Idle h now) :
    KeepsPace [Command.downClose, Command.stop, Command.upOpen] (learnLowerBound level) now h := by
  refine proceeds_bind (proceeds_note ?_)
  refine proceeds_bind (proceeds_request (paced_move hi.rest hi.settled (by decide))
    fun t₁ values₁ hl₁ => proceeds_bind (proceeds_pause fun s₂ hs₂ => ?_))
  have hc₁ : Calm (h ++ [⟨.command .windowCovering Command.downClose, now,
      some (t₁, .ok values₁)⟩]) s₂ :=
    hi.toCalm.snoc hl₁ (by omega) (absurd · not_settles_command)
  refine proceeds_bind (proceeds_request (paced_stop hc₁.settled List.getLast?_concat rfl
    ⟨t₁, _, rfl, hs₂⟩) fun t₂ values₂ hl₂ => proceeds_bind (proceeds_pause fun s₃ hs₃ => ?_))
  have hc₂ : Calm (_ ++ [⟨.command .windowCovering Command.stop, s₂, some (t₂, .ok values₂)⟩]) s₃ :=
    hc₁.snoc hl₂ (Nat.le_of_add_right_le hs₃) (absurd · not_settles_command)
  refine (keepsPace_travel (rest_of_stop hs₃) hc₂ (by decide)).mono fun _ _ _ hleaves => ?_
  refine ⟨hleaves.idle, ?_⟩
  rw [hleaves.commands, commandsOf_snoc, commandsOf_snoc]
  simp [Request.command?]

theorem keepsPace_learnFullRange (hi : Idle h now) :
    KeepsPace [Command.downClose, Command.upOpen] (learnFullRange level) now h := by
  refine (keepsPace_note hi).quiet fun _ _ _ hi => ?_
  rw [← bind_assoc]
  exact (keepsPace_travel hi.rest hi.toCalm (by decide)).bind fun _ _ _ hi =>
    keepsPace_travel hi.rest hi.toCalm (by decide)

theorem keepsPace_writeOverrides {overrides : Entries} (hi : Idle h now) :
    KeepsPace [] (writeOverrides level overrides) now h := by
  induction overrides generalizing now h with
  | nil => exact keepsPace_pure hi
  | cons e overrides ih =>
    refine (keepsPace_note hi).quiet fun _ _ _ hi => ?_
    exact (keepsPace_override hi).quiet fun _ _ _ hi => ih hi

/-- The pause comes first here, as an override takes effect without one. -/
theorem keepsPace_finalize (hi : Idle h now) : KeepsPace [] (finalize level mode) now h :=
  proceeds_bind (proceeds_pause fun later hl =>
    (keepsPace_note (hi.wait (by omega))).quiet fun _ _ _ hi => keepsPace_settling hi)

/-- Every phase begins and ends with the motor at rest. -/
theorem keepsPace_phase (p : Phase) (hi : Idle h now) :
    KeepsPace p.commands (p.procedure o level mode) now h := by
  cases p with
  | settle => exact (keepsPace_announce hi).quiet fun _ _ _ hi => keepsPace_settle hi
  | base => exact keepsPace_writeBase hi
  | prime =>
    refine KeepsPace.andReturn ((keepsPace_note hi).quiet fun _ _ _ hi => ?_)
    exact keepsPace_travel hi.rest hi.toCalm (by decide)
  | reset | enable =>
    exact KeepsPace.andReturn ((keepsPace_note hi).quiet fun _ _ _ hi => keepsPace_settling hi)
  | learnLower => exact (keepsPace_learnLowerBound hi).andReturn
  | learnRange => exact (keepsPace_learnFullRange hi).andReturn
  | overrides => exact (keepsPace_writeOverrides hi).andReturn
  | finalize => exact (keepsPace_finalize hi).andReturn

theorem keepsPace_performPhases {ps : List Phase} (hi : Idle h now) :
    KeepsPace (ps.flatMap Phase.commands) (performPhases o level ps mode) now h := by
  induction ps generalizing mode now h with
  | nil => exact keepsPace_pure hi
  | cons p ps ih => exact (keepsPace_phase p hi).bind fun _ _ _ hi => ih hi

theorem keepsPace_readReport (hi : Idle h now) : KeepsPace [] readReport now h :=
  (keepsPace_read hi).quiet fun _ _ _ hi => (keepsPace_read hi).quiet fun _ _ _ hi =>
    (keepsPace_read hi).quiet fun _ _ _ hi => keepsPace_pure hi

theorem keepsPace_conclude {start : Nat} (hi : Idle h now) : KeepsPace [] (conclude o start) now h :=
  (keepsPace_readReport hi).quiet fun _ _ _ hi =>
    proceeds_bind (proceeds_clock (proceeds_bind (proceeds_log (keepsPace_pure hi))))

theorem idle_nil : Idle [] now := ⟨⟨by simp, by simp [Settled]⟩, by simp [AtRest]⟩

/-- A whole run keeps the pace. -/
theorem keepsPace_configure {verbose : Bool} :
    KeepsPace ((Phase.all o.calibrate).flatMap Phase.commands) (configure o verbose) now [] := by
  rw [configure_eq]
  refine proceeds_bind (proceeds_clock ?_)
  rw [← List.append_nil (List.flatMap _ _)]
  exact (keepsPace_performPhases idle_nil).bind fun _ _ _ hi => keepsPace_conclude hi

end

end Covering

end Commissioning

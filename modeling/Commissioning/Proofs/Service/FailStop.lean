import Commissioning.Proofs.Service.Regular
import Commissioning.Proofs.Service.Turns

/-!
Failures stop an operation. A request that fails is the last one of its run, and nothing is tried
again or taken back; an operation that is given up starts nothing more. So the calls of a run that
stops early are a beginning of the calls of the run that goes on:

    read ── write ── write, failure              raised
    read ── write ── write, given up             cancelled
    read ── write ── write ── command ── …       goes on

One failure is absorbed: a device that does not tell its firmware is taken for an old one.
-/
namespace Commissioning
open Procedure

/-- What stopping at a failure means for a procedure. -/
structure Procedure.FailStop {α : Type} (Absorbs : Request → Fault → Prop) (p : Procedure α) :
    Prop where
  /-- A request that fails is the last thing a run waits for, and its failure is what the run raises,
  unless the failure is absorbed. -/
  raised : ∀ now before x after r finish q e, Takes p now (before ++ x :: after) r finish →
    x.FailsWith q e → ¬ Absorbs q e → after = [] ∧ r = .error (.raised e)
  /-- A run that is given up ends in the wait in which it is given up, with no call after that. -/
  cancelled : ∀ now w finish, Takes p now w (.error .cancelled) finish →
    (∃ before x, w = before ++ [x] ∧ x.IsOpen) ∧ ∀ c ∈ callsOf w, c.1 ≤ finish
  /-- The calls of a run begin the calls of every run that agrees with it up to its last wait. -/
  beginning : ∀ now before x r finish w r' finish', Takes p now (before ++ [x]) r finish →
    Takes p now w r' finish' → before <+: w → callsOf (before ++ [x]) <+: callsOf w
  /-- There is such a run for each way in which the last wait can end. -/
  resumed : ∀ now before x r finish y, Takes p now (before ++ [x]) r finish → y.IsOver →
    y.opened = x.opened → ∃ rest r' finish',
      Takes p now (before ++ y :: rest) r' finish' ∧ r' ≠ .error .cancelled

theorem Procedure.Regular.failStop {α : Type} {Raises : Fault → Prop}
    {Absorbs : Request → Fault → Prop} {p p' : Procedure α}
    (h : Regular Raises Absorbs 0 0 p p') : p.FailStop Absorbs where
  raised _ _ _ _ _ _ _ _ hrun hx he := h.raised hrun hx he
  cancelled _ w finish hrun := by
    refine ⟨hrun.last_open.2 rfl, fun c hc => ?_⟩
    obtain ⟨x, hx, rfl⟩ := List.mem_map.mp hc
    obtain ⟨y, hy, hyx⟩ := List.mem_filterMap.mp hx
    cases y with
    | exchange y =>
      cases hyx
      exact hrun.since_le.2 _ hy
    | pause ms since woken => cases hyx
  beginning _ _ _ _ _ _ _ _ hrun hrun' hw := hrun.callsOf_prefix hrun' hw
  resumed _ _ _ _ _ _ hrun hy hxy := hrun.exists_resumed hy hxy

/-! ### The operations -/

/-- An operation as a program calls it: calibrations with options that are still to be checked or
with checked ones, and the three kinds of devices configured and read. -/
inductive Errand where
  | calibrate (given : Value)
  | configureCovering (o : Covering.Options)
  | readCovering
  | configureDeviceSetup (model build : Value) (payloads : DeviceSetup.Payloads)
  | readDeviceSetup
  | configureDimmer (phase minimum : Value)
  | readDimmer

namespace Errand

/-- The procedure of an operation. -/
def procedure (verbose : Bool) : Errand → Procedure Entries
  | calibrate given => Covering.configureRaw given verbose
  | configureCovering o => Covering.configure o verbose
  | readCovering => Covering.readReport
  | configureDeviceSetup model build payloads => DeviceSetup.configure model build payloads verbose
  | readDeviceSetup => DeviceSetup.read
  | configureDimmer phase minimum => Dimmer.configure phase minimum verbose
  | readDimmer => Dimmer.read

/-- The failures after which an operation goes on. -/
def Absorbs : Errand → Request → Fault → Prop
  | configureDeviceSetup .. => DeviceSetup.BuildUntold
  | _ => fun _ _ => False

theorem steady (errand : Errand) (verbose : Bool) (b b' : Nat) :
    Steady errand.Absorbs b b' (errand.procedure verbose) (errand.procedure verbose) := by
  cases errand with
  | calibrate given => exact Covering.steady_configureRaw given verbose
  | configureCovering o => exact (Covering.vetted_configure o verbose).steady
  | readCovering => exact Covering.vetted_readReport.steady
  | configureDeviceSetup model build payloads =>
    exact DeviceSetup.steady_configure (fun _ _ h => h) model build payloads verbose
  | readDeviceSetup => exact DeviceSetup.vetted_read.steady
  | configureDimmer phase minimum => exact Dimmer.steady_configure phase minimum verbose
  | readDimmer => exact Dimmer.vetted_read.steady

end Errand

/-! ### The failure that is absorbed -/

namespace DeviceSetup

/-- The requests of the setup cluster, of which structured writes are for newer firmware only. -/
def Setup (structured : Bool) (q : Request) : Prop :=
  q.cluster = .deviceSetup ∧ (q.kind = .writeStructured → structured)

theorem ArrayRequest.setup {structured : Bool} {q : Request}
    (h : ArrayRequest (fun w => w.structured → structured) q) : Setup structured q := by
  cases h with
  | read t => exact ⟨rfl, nofun⟩
  | plain => exact ⟨rfl, nofun⟩
  | structured h form => exact ⟨rfl, fun _ => h form⟩

/-- Once the firmware is known, nothing but the setup cluster is asked, in the form for it. -/
theorem sends_setup {model build : Value} {payloads : Payloads} {compiled : Value} {level : Level}
    {start : Nat} {structured : Bool} (hs : ∀ x, (supportsStructuredWrite build).outcome = .ok x →
      x → structured) :
    Sends (Setup structured) (carryOut model payloads compiled level start build) := by
  have hform : Sends (ArrayRequest fun w => w.structured → structured)
      (carryOut model payloads compiled level start build) := by
    refine sends_carryOut fun form hform p _ w _ hw hstructured => hs form hform ?_
    rw [← build_structured hw]
    exact hstructured
  exact hform.mono fun _ h => h.setup

/-- An answer that tells no firmware: no entry for it, or a failure of the transport. -/
inductive Untold : Outcome Entries → Prop where
  | missing : Untold (.ok [])
  | failed (e : Fault) (he : IsTransport e) : Untold (.error e)

section
variable {α : Type} {now finish sent later : Nat} {before after : List Exchange}
  {answer : Outcome Entries}

theorem runs_toldBuild_bind {f : Value → Procedure α} {t : List Exchange} {r : Except Stop α}
    (h : Untold answer) :
    Runs (toldBuild answer >>= f) now t r finish ↔ Runs (f .null) now t r finish := by
  cases h with
  | missing => exact Iff.rfl
  | failed e he =>
    have hbranch : (e.category = .transport || e.category = .motorRunning) = true := by
      simpa [IsTransport] using he
    rw [toldBuild, if_pos hbranch]
    exact Iff.rfl

/-- The question for the firmware is put once, and it is the first of the calls. -/
theorem runs_readBuild_bind {f : Value → Procedure α} {r : Except Stop α}
    (hf : ∀ build, Sends (Setup true) (f build)) :
    Runs (readBuild >>= f) now (before ++ ⟨buildRead, sent, some (later, answer)⟩ :: after) r finish ↔
      before = [] ∧ sent = now ∧ now ≤ later ∧
        Runs (toldBuild answer >>= f) later after r finish := by
  rw [readBuild_eq]
  constructor
  · rintro (⟨-, ht, -⟩ | ⟨later', answer', rest, hl, ht, hrun⟩)
    · cases before with
      | nil => cases ht
      | cons x before => simp at ht
    · cases before with
      | nil =>
        cases ht
        exact ⟨rfl, rfl, hl, hrun⟩
      | cons x before =>
        -- later requests are for the setup cluster
        have hsends : Sends (Setup true) (toldBuild answer' >>= f) :=
          sends_bind (sends_toldBuild _) hf
        obtain ⟨-, rfl⟩ := List.cons.inj ht
        have hcluster := (hsends.of_runs hrun ⟨buildRead, sent, some (later, answer)⟩ (by simp)).1
        cases hcluster
  · rintro ⟨rfl, rfl, hl, hrun⟩
    exact .inr ⟨later, answer, after, hl, rfl, hrun⟩

variable {model : Value} {payloads : Payloads} {verbose : Bool} {r : Except Stop Entries}

/-- The run after a question for the firmware that has told none: the question was the first call, and
all that follows is done as for old firmware. -/
theorem runs_configure_untold (h : Untold answer) :
    Runs (configure model .null payloads verbose) now
        (before ++ ⟨buildRead, sent, some (later, answer)⟩ :: after) r finish ↔
      before = [] ∧ sent = now ∧ now ≤ later ∧
        checkRaw payloads.configurations payloads.actions = .ok () ∧
        ∃ compiled, (compilePayload model payloads.templates).outcome = .ok compiled ∧
          Runs (carryOut model payloads compiled (Level.ofVerbose verbose) now .null) later after r
            finish := by
  rw [configure_eq]
  change Runs ((Plan.ofOutcome (checkRaw payloads.configurations payloads.actions) : Procedure Unit)
    >>= fun _ => _) now _ r finish ↔ _
  cases hraw : checkRaw payloads.configurations payloads.actions with
  | error e =>
    constructor
    · rintro ⟨ht, -, -⟩
      simp at ht
    · rintro ⟨-, -, -, ⟨⟩, -⟩
  | ok =>
    refine runs_ofLogged_bind.trans ?_
    cases hcompiled : (compilePayload model payloads.templates).outcome with
    | error e =>
      constructor
      · rintro ⟨ht, -, -⟩
        simp at ht
      · rintro ⟨-, -, -, -, _, ⟨⟩, -⟩
    | ok compiled =>
      refine (runs_readBuild_bind fun build => sends_setup fun _ _ _ => rfl).trans ?_
      rw [runs_toldBuild_bind h]
      constructor
      · rintro ⟨hb, hs, hl, hrun⟩
        exact ⟨hb, hs, hl, rfl, compiled, rfl, hrun⟩
      · rintro ⟨hb, hs, hl, -, _, ⟨⟩, hrun⟩
        exact ⟨hb, hs, hl, hrun⟩

end

end DeviceSetup

/-- Every operation stops at its first failure, and starts nothing more once it is given up; what it
has asked until then is a beginning of what it asks if that wait ends well. The one failure that does
not stop it is that of the question for the firmware: the operation goes on as after an answer without
it, writes the given payloads in the form for old firmware, and reads both arrays. A task of a session
that has been cancelled, or has ended, has no call put down to it any more, in whatever order tasks
move on and devices change. -/
theorem fail_stop :
    (∀ (errand : Errand) (verbose : Bool), (errand.procedure verbose).FailStop errand.Absorbs) ∧
    (∀ (model : Value) (payloads : DeviceSetup.Payloads) (verbose : Bool) (now sent later : Nat)
      (before after : List Exchange) (e : Fault) (r : Except Stop Entries) (finish : Nat),
      DeviceSetup.IsTransport e →
      let p := DeviceSetup.configure model .null payloads verbose
      let untold (answer : Outcome Entries) : List Exchange :=
        before ++ ⟨DeviceSetup.buildRead, sent, some (later, answer)⟩ :: after
      (Runs p now (untold (.error e)) r finish ↔ Runs p now (untold (.ok [])) r finish) ∧
      (Runs p now (untold (.error e)) r finish →
        before = [] ∧ (∀ x ∈ after, x.request.kind ≠ .writeStructured) ∧
        ∃ compiled, (DeviceSetup.compilePayload model payloads.templates).outcome = .ok compiled ∧
          after.map Exchange.request <+: payloads.requests compiled false ∧
          ∀ report, r = .ok report →
            after.map Exchange.request = payloads.requests compiled false)) ∧
    (∀ (s : Session) (i : Nat) (t : Task), s.tasks[i]? = some t →
      t.isCancelled ∨ t.result?.isSome → ∀ turns : List Session.Turn,
        Session.NotBy i (Session.gained Session.made s turns)) := by
  refine ⟨?_, ?_, ?_⟩
  · intro errand verbose
    exact (errand.steady verbose 0 0).failStop
  · intro model payloads verbose now sent later before after e r finish he p untold
    have hfailed : Runs p now (untold (.error e)) r finish ↔ _ :=
      DeviceSetup.runs_configure_untold (.failed e he)
    refine ⟨hfailed.trans (DeviceSetup.runs_configure_untold .missing).symm, fun hrun => ?_⟩
    obtain ⟨hbefore, -, -, -, compiled, hcompiled, hrest⟩ := hfailed.mp hrun
    refine ⟨hbefore, fun x hx hkind => ?_, compiled, hcompiled,
      (DeviceSetup.sendsInTurn_carryOut rfl).of_runs hrest⟩
    have hold : ∀ form, (supportsStructuredWrite .null).outcome = .ok form → form → false := by
      intro form hform hstructured
      cases hform
      exact hstructured
    exact Bool.false_ne_true (((DeviceSetup.sends_setup hold).of_runs hrest x hx).2 hkind)
  · intro s i t ht hend turns
    rw [Session.notBy_iff]
    rcases hend with hcancelled | hended
    · exact Session.ofTask_of_cancelled (fun _ _ h => h.made) ht hcancelled turns
    · obtain ⟨⟨finish, outcome⟩, hresult⟩ := Option.isSome_iff_exists.mp hended
      have hstage : t.stage = .ended finish outcome := by
        unfold Task.result? at hresult
        split at hresult
        · next h =>
          cases hresult
          exact h
        · cases hresult
      exact (Session.after_of_ended (fun _ _ h => h.made) ht hstage turns).2

/-- A dimmer that tells what it can do, but not its status: the second question is the last one, and
the two questions begin every run in which it is answered. -/
theorem fail_stop_second_question :
    let e := Fault.link (.arranged "read" Attribute.status)
    let first := Wait.exchange ⟨.read .dimmerSetup [Attribute.capabilities] none, 0,
      some (5, .ok [(Attribute.capabilities, .int 3)])⟩
    let second (answer : Outcome Entries) :=
      Wait.exchange ⟨.read .dimmerSetup [Attribute.status] none, 5, some (9, answer)⟩
    Takes Dimmer.read 0 [first, second (.error e)] (.error (.raised e)) 9 ∧
      ∃ rest r finish,
        Takes Dimmer.read 0 ([first] ++ second (.ok [(Attribute.status, .int 1)]) :: rest) r finish ∧
        callsOf [first, second (.error e)] <+:
          callsOf ([first] ++ second (.ok [(Attribute.status, .int 1)]) :: rest) := by
  intro e first second
  have hstop : Dimmer.read.FailStop fun _ _ => False := fail_stop.1 .readDimmer false
  have hrun : Takes Dimmer.read 0 ([first] ++ [second (.error e)]) (.error (.raised e)) 9 :=
    .inr ⟨5, _, _, Nat.zero_le 5, rfl, .inr ⟨9, _, _, by decide, rfl, rfl, rfl, rfl⟩⟩
  have hover : (second (.ok [(Attribute.status, .int 1)])).IsOver := ⟨9, _, rfl, by decide⟩
  obtain ⟨rest, r, finish, hresumed, -⟩ := hstop.resumed _ _ _ _ _ _ hrun hover rfl
  exact ⟨hrun, rest, r, finish, hresumed,
    hstop.beginning _ _ _ _ _ _ _ _ hrun hresumed (List.prefix_append _ _)⟩

end Commissioning

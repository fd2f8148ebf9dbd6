import Commissioning.Proofs.DeviceSetup.Checks

/-!
What the setup cluster is asked for. There are few sorts of requests, whatever the payloads are and
whatever the device answers:

    firmware ────── read by name            basic cluster, at most once
    payload ─────── one array, plain or structured, as the firmware has it
    in the end ──── both arrays read by name

Every array that is written is the write of a payload, so what holds of all of these writes holds of
every request (`sends_configure`). Once the firmware is known there is no choice left: the requests
are told from the payloads, one after the other (`sendsInTurn_carryOut`).
-/
namespace Commissioning.DeviceSetup
open Procedure

/-- The question for the build identifier of the firmware. -/
def buildRead : Request := .read .basic [Attribute.softwareBuild] none

/-- A request for an array: it is read by its name, or one of the writes `W` is sent in its form. -/
inductive ArrayRequest (W : ArrayWrite → Prop) : Request → Prop where
  | read (t : ArrayAttribute) : ArrayRequest W (.read .deviceSetup [t.name] none)
  | plain {w : ArrayWrite} (h : W w) (form : w.structured = false) :
    ArrayRequest W (.write .deviceSetup w.asValues none)
  | structured {w : ArrayWrite} (h : W w) (form : w.structured = true) :
    ArrayRequest W (.writeStructured .deviceSetup [w.asRecord] none)

/-- A request while the setup cluster is configured. -/
inductive Asks (W : ArrayWrite → Prop) : Request → Prop where
  | build : Asks W buildRead
  | array {q : Request} (h : ArrayRequest W q) : Asks W q

/-- The payloads in the order in which they are written, rows from templates last. -/
def Payloads.inOrder (payloads : Payloads) (compiled : Value) : List (ArrayAttribute × Value) := [
  (.configurations, payloads.configurations), (.actions, payloads.actions), (.actions, compiled)]

theorem build_structured {target : ArrayAttribute} {elements : Value} {structured : Bool}
    {w : ArrayWrite} (h : ArrayWrite.build target elements structured = .ok w) :
    w.structured = structured := by
  obtain ⟨items, -, h⟩ := bind_eq_ok.mp h
  cases h
  rfl

variable {W : ArrayWrite → Prop} {level : Level} {start : Nat} {model build compiled : Value}
  {payloads : Payloads}

theorem sends_read : Sends (ArrayRequest W) DeviceSetup.read := by
  refine sends_bind (sends_send (.read .configurations)) fun _ => ?_
  refine sends_bind (sends_send (.read .actions)) fun _ => ?_
  refine sends_bind (sends_ofOutcome _) fun _ => sends_bind (sends_ofOutcome _) fun _ => ?_
  exact sends_ofLogged_bind fun _ _ => sends_pure

theorem sends_writePayload {structured : Bool} {target : ArrayAttribute} {elements : Value}
    (h : ∀ w, ¬ elements.isNull → ArrayWrite.build target elements structured = .ok w → W w) :
    Sends (ArrayRequest W) (writePayload level structured target elements) := by
  unfold writePayload
  split
  · next hgiven =>
    cases hw : ArrayWrite.build target elements structured with
    | error e => trivial
    | ok w =>
      have hwrite : W w := h w (by simpa using hgiven) hw
      rw [ofMismatch_ok, pure_bind]
      refine sends_bind (sends_bind sends_log fun _ => ?_) fun _ => sends_note
      split
      · next hform => exact sends_request (.structured hwrite hform)
      · next hform => exact sends_request (.plain hwrite (by simpa using hform))
  · exact sends_pure

/-- Once the firmware is known, nothing but the arrays is asked for. -/
theorem sends_carryOut (h : ∀ structured, (supportsStructuredWrite build).outcome = .ok structured →
      ∀ p ∈ payloads.inOrder compiled, ∀ w, ¬ p.2.isNull →
        ArrayWrite.build p.1 p.2 structured = .ok w → W w) :
    Sends (ArrayRequest W) (carryOut model payloads compiled level start build) := by
  refine sends_ofLogged_bind fun structured hform => sends_bind sends_note fun _ => ?_
  have hwrites := h structured hform
  simp only [Payloads.inOrder, List.forall_mem_cons] at hwrites
  obtain ⟨hconfigurations, hactions, hcompiled, -⟩ := hwrites
  refine sends_bind ?_ fun _ => ?_
  · exact sends_bind (sends_writePayload hconfigurations) fun _ =>
      sends_bind (sends_writePayload hactions) fun _ => sends_writePayload hcompiled
  · exact sends_bind sends_read fun _ => sends_bind sends_clock fun _ =>
      sends_bind sends_note fun _ => sends_pure

/-- The firmware in an answer to the question for it. -/
def toldBuild : Outcome Entries → Procedure Value
  | .ok values =>
    let build := values.get Attribute.softwareBuild
    .done (if build.isTruthy then .str build.toText else .null)
  | .error e =>
    if e.category = .transport || e.category = .motorRunning then do
      Procedure.log [⟨.warning, "Could not read firmware build ID: " ++ e.message⟩]
      return .null
    else .fail e

theorem readBuild_eq : readBuild = .ask (.exchange buildRead) toldBuild := rfl

theorem sends_toldBuild {Q : Request → Prop} (answer : Outcome Entries) :
    Sends Q (toldBuild answer) := by
  cases answer with
  | ok values => trivial
  | error e =>
    rw [toldBuild]
    split
    · exact sends_bind sends_log fun _ => sends_pure
    · trivial

theorem sends_readBuild : Sends (Asks W) readBuild := ⟨.build, sends_toldBuild⟩

/-- What holds of all writes that checked payloads may become holds of all that are sent. -/
theorem sends_configure {verbose : Bool}
    (h : checkRaw payloads.configurations payloads.actions = .ok () →
      ∀ compiled, (compilePayload model payloads.templates).outcome = .ok compiled →
        ∀ p ∈ payloads.inOrder compiled, ∀ structured w, ¬ p.2.isNull →
          ArrayWrite.build p.1 p.2 structured = .ok w → W w) :
    Sends (Asks W) (configure model build payloads verbose) := by
  rw [configure_eq]
  refine sends_bind sends_clock fun start => ?_
  cases hraw : checkRaw payloads.configurations payloads.actions with
  | error e => trivial
  | ok =>
    refine sends_ofLogged_bind fun compiled hcompiled => sends_bind ?_ fun used => ?_
    · unfold buildFor
      split
      · exact sends_readBuild
      · exact sends_pure
    · have hcarry : Sends (ArrayRequest W) (carryOut model payloads compiled (Level.ofVerbose verbose)
          start used) :=
        sends_carryOut fun structured _ p hp w => h hraw compiled hcompiled p hp structured w
      exact hcarry.mono fun _ hq => .array hq

/-! ### The requests in turn -/

/-- The request that a write of an array is sent as. -/
def ArrayWrite.request (w : ArrayWrite) : Request :=
  if w.structured then .writeStructured .deviceSetup [w.asRecord] none
  else .write .deviceSetup w.asValues none

/-- The write of a payload, if it is given and has elements at all. -/
def payloadRequests (structured : Bool) (p : ArrayAttribute × Value) : List Request :=
  if p.2.isNull then []
  else match ArrayWrite.build p.1 p.2 structured with
    | .ok w => [w.request]
    | .error _ => []

/-- The writes of the given payloads in one form, and the questions for both arrays behind them. -/
def Payloads.requests (payloads : Payloads) (compiled : Value) (structured : Bool) : List Request :=
  (payloads.inOrder compiled).flatMap (payloadRequests structured) ++
    ArrayAttribute.all.map fun t => .read .deviceSetup [t.name] none

theorem sendsInTurn_sendWrite (w : ArrayWrite) : SendsInTurn [w.request] w.send := by
  unfold ArrayWrite.send ArrayWrite.request
  refine sendsInTurn_bind_right rfl fun _ => ?_
  split
  · exact sendsInTurn_request _
  · exact sendsInTurn_request _

theorem sendsInTurn_writePayload {structured : Bool} (p : ArrayAttribute × Value) :
    SendsInTurn (payloadRequests structured p) (writePayload level structured p.1 p.2) := by
  unfold payloadRequests writePayload
  cases p.2.isNull with
  | true => exact sendsInTurn_pure
  | false =>
    cases ArrayWrite.build p.1 p.2 structured with
    | error e => trivial
    | ok w =>
      have hwrite : SendsInTurn [w.request] (do
          w.send
          note level "DeviceSetup written"
            [("attribute", .str p.1.name), ("elements", .int w.elements.length)]) :=
        sendsInTurn_bind_left (sendsInTurn_sendWrite w) fun _ => rfl
      exact hwrite

theorem sendsInTurn_read :
    SendsInTurn (ArrayAttribute.all.map fun t => .read .deviceSetup [t.name] none)
      DeviceSetup.read := by
  refine sendsInTurn_bind (sendsInTurn_send _) fun _ => ?_
  refine sendsInTurn_bind (sendsInTurn_send _) fun _ => ?_
  refine sendsInTurn_bind_right (sendsInTurn_ofOutcome _) fun _ => ?_
  refine sendsInTurn_bind_right (sendsInTurn_ofOutcome _) fun _ => ?_
  exact sendsInTurn_ofLogged_bind fun _ _ => sendsInTurn_pure

/-- Once the firmware is known, the payloads are written in its form and the arrays are read back. -/
theorem sendsInTurn_carryOut {structured : Bool}
    (h : (supportsStructuredWrite build).outcome = .ok structured) :
    SendsInTurn (payloads.requests compiled structured)
      (carryOut model payloads compiled level start build) := by
  have hwrites : SendsInTurn ((payloads.inOrder compiled).flatMap (payloadRequests structured))
      (writeAll level structured payloads compiled) := by
    simp only [Payloads.inOrder, List.flatMap_cons, List.flatMap_nil, List.append_nil]
    refine sendsInTurn_bind (sendsInTurn_writePayload (.configurations, _)) fun _ => ?_
    exact sendsInTurn_bind (sendsInTurn_writePayload (.actions, _)) fun _ =>
      sendsInTurn_writePayload (.actions, _)
  have hreadBack : SendsInTurn (ArrayAttribute.all.map fun t => .read .deviceSetup [t.name] none)
      (readBack level start) :=
    sendsInTurn_bind_left sendsInTurn_read fun _ _ => rfl
  refine sendsInTurn_ofLogged_bind fun form hform => ?_
  obtain rfl := Except.ok.inj (h.symm.trans hform)
  refine sendsInTurn_bind_right rfl fun _ => ?_
  exact sendsInTurn_bind hwrites fun _ => hreadBack

end Commissioning.DeviceSetup

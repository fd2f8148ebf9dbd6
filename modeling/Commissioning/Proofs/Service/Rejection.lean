import Commissioning.Proofs.Service.Faults
import Commissioning.Proofs.Service.LockProtocol
import Commissioning.Proofs.Service.Turns

/-!
A call that is turned down leaves no trace: a task that ends with a rejection has nothing put down to
it, neither before nor after its end, in whatever order tasks move on and devices change.

    wake 0        wake 1              wake 0
    (0, read)     nothing: rejected   (0, write), (0, event)
-/
namespace Commissioning

namespace Session
variable {s : Session} {t : Task} {j : Job} {γ : Type}

/-! ### What a rejection leaves behind -/

/-- A task has left no trace, unless it is past all checks. -/
def Sound (quiet : Prop) : Stage → Prop
  | .waiting _ => quiet
  | .running _ _ activity => activity.Accepts
  | .ended _ outcome => Accepted outcome ∨ quiet

theorem Sound.mono {quiet quiet' : Prop} {st : Stage} (h : Sound quiet st) (hq : quiet → quiet') :
    Sound quiet' st := by
  cases st with
  | waiting start => exact hq h
  | running j began activity => exact h
  | ended finish outcome => exact h.imp id hq

theorem settle_sound {quiet : Prop} {began : Nat} {r : Activity Entries × Hub}
    (hr : r.1.Accepts) : Sound quiet (s.settle j began r).1 := by
  obtain ⟨activity, hub⟩ := r
  cases activity with
  | ended outcome => exact .inl hr
  | pausing wake rest => exact hr
  | calling wake x next => exact hr

/-- A job that ends without a call, and of which no event tells, has left no trace. -/
theorem settle_same {began : Nat} {outcome : Outcome Entries} {hub : Hub}
    (hcalls : hub.calls = s.made) (huntold : ∀ finish, j.event? began finish outcome = none) :
    Same s (s.settle j began (.ended outcome, hub)).2 := by
  obtain ⟨hhub, hevents⟩ := release_keeps (({ s with hub } : Session).conclude j began outcome) j
  constructor
  · change (Session.release _ j).hub.calls = s.made
    rw [hhub]
    exact hcalls
  · change (Session.release _ j).events = s.events
    rw [hevents, conclude, huntold]
    exact List.append_nil _

/-- A job that has just started is past all checks, or has left no trace. -/
theorem launch_sound (s : Session) (j : Job) : Sound (Same s (s.launch j).2) (s.launch j).1 := by
  rcases Activity.start_checksFirst (j.purpose.checksFirst_procedure s.verbose) j.device s.hub with
    haccepts | ⟨outcome, hended, hcalls⟩
  · exact settle_sound haccepts
  · rcases j.purpose.accepts_or_untold s.verbose with haccepts | huntold
    · exact settle_sound (Activity.start_accepts haccepts j.device s.hub)
    · have hstart : Activity.start j.device s.hub (j.purpose.procedure s.verbose) =
        (.ended outcome, (Activity.start j.device s.hub (j.purpose.procedure s.verbose)).2) :=
          Prod.ext hended rfl
      rw [launch, hstart]
      exact .inr (settle_same hcalls fun finish => huntold _ _ _ finish _)

theorem enter_sound (s : Session) (j : Job) : Sound (Same s (s.enter j).2) (s.enter j).1 := by
  unfold enter
  split
  · exact launch_sound s j
  · split
    · exact .inr ⟨rfl, rfl⟩
    · dsimp only
      split
      · exact .inr ⟨rfl, rfl⟩
      · exact .inr ⟨rfl, rfl⟩
      · exact (launch_sound _ j).mono fun h => ⟨h.made, h.events⟩

/-- One move of a task keeps it sound. -/
theorem move_sound {quiet : Prop} (h : Sound quiet t.stage) :
    Sound (quiet ∧ Same s (s.move t).2) (s.move t).1 := by
  cases hst : t.stage with
  | waiting start =>
    rw [hst] at h
    have hmove : s.move t = s.start t.call := by simp only [move, hst]
    rw [hmove]
    unfold Session.start
    dsimp only
    split
    · exact .inr ⟨h, rfl, rfl⟩
    · next j _ => exact (enter_sound (s.write _) j).mono fun hsame => ⟨h, hsame.made, hsame.events⟩
  | running j began activity =>
    rw [hst] at h
    unfold move
    simp only [hst]
    split
    · have hcancelled : ¬ Fault.cancelled.IsRejection := by simp [Fault.IsRejection, Fault.category]
      exact .inl (accepted_error.mpr hcancelled)
    · exact settle_sound (Activity.resume_accepts h _ _)
  | ended finish outcome =>
    rw [hst] at h
    have hmove : s.move t = (t.stage, s) := by simp only [move, hst]
    rw [hmove, hst]
    exact h.mono fun hquiet => ⟨hquiet, rfl, rfl⟩

variable {record : Session → List γ} {i : Nat}

/-- Turns keep a task sound, whatever was put down before. -/
theorem after_sound (hsame : ∀ s s', Same s s' → record s' = record s) {before : List (Nat × γ)}
    (turns : List Turn) (ht : s.tasks[i]? = some t) (h : Sound (NotBy i before) t.stage) :
    ∃ t', (s.after turns).tasks[i]? = some t' ∧
      Sound (NotBy i (before ++ gained record s turns)) t'.stage := by
  induction turns generalizing s t before with
  | nil =>
    refine ⟨t, ht, ?_⟩
    rw [gained, List.append_nil]
    exact h
  | cons turn turns ih =>
    cases turn with
    | arrange a f => exact ih (s := s.arrange a f) ht h
    | wake k =>
      rw [gained, ← List.append_assoc]
      by_cases hk : k = i
      · subst hk
        refine ih (getElem?_advance ht) ((move_sound (s := s.atWake t) h).mono ?_)
        rintro ⟨hquiet, hsame'⟩
        have hrecord : record (s.advance k) = record s := by
          refine hsame _ _ ?_
          rw [advance_eq ht]
          exact ⟨hsame'.made, hsame'.events⟩
        rw [hrecord, List.drop_length, List.map_nil, List.append_nil]
        exact hquiet
      · have hother := (getElem?_advance_of_ne hk).trans ht
        refine ih hother (h.mono fun hquiet x hx => ?_)
        rcases List.mem_append.mp hx with hx | hx
        · exact hquiet x hx
        · obtain ⟨y, -, rfl⟩ := List.mem_map.mp hx
          exact hk

theorem sound_opened {calls : List Call} (ht : (s.opened calls).tasks[i]? = some t) :
    Sound (NotBy i ([] : List (Nat × γ))) t.stage := by
  obtain ⟨c, -, rfl⟩ := List.mem_map.mp (List.mem_of_getElem? ht)
  exact nofun

/-- A task that ends with a rejection has nothing put down to it. -/
theorem notBy_of_rejection (hsame : ∀ s s', Same s s' → record s' = record s) (calls : List Call)
    (turns : List Turn) {finish : Nat} {e : Fault}
    (ht : ((s.opened calls).after turns).tasks[i]? = some t)
    (hend : t.stage = .ended finish (.error e)) (he : e.IsRejection) :
    NotBy i (gained record (s.opened calls) turns) := by
  have hthere : ((s.opened calls).tasks[i]?).isSome := getElem?_after (by rw [ht]; rfl)
  obtain ⟨t₀, ht₀⟩ := Option.isSome_iff_exists.mp hthere
  obtain ⟨t', ht', hsound⟩ := after_sound hsame turns ht₀ (sound_opened ht₀)
  rw [ht] at ht'
  cases ht'
  rw [hend, List.nil_append] at hsound
  rcases hsound with haccepted | hquiet
  · exact absurd he (accepted_error.mp haccepted)
  · exact hquiet

end Session

/-- Requests that are turned down reach no device. In a session, whatever calls are made and in
whatever order tasks move on and devices change, all calls of clusters and all events are those that
are put down to tasks, and none are put down to a task that ends with a rejection. One bad element in
any payload of the setup cluster leaves one way to go, on which nothing is asked. -/
theorem rejection_without_trace :
    (∀ (s : Session) (calls : List Call) (turns : List Session.Turn),
      let s' := (s.opened calls).after turns
      let made := Session.gained Session.made (s.opened calls) turns
      let told := Session.gained Session.events (s.opened calls) turns
      s'.made = made.map Prod.snd ∧ s'.events = told.map Prod.snd ∧
      ∀ (i : Nat) (t : Task) (finish : Nat) (e : Fault), s'.tasks[i]? = some t →
        t.stage = .ended finish (.error e) → e.IsRejection →
        Session.NotBy i made ∧ Session.NotBy i told) ∧
    (∀ (model : Value) (payloads : DeviceSetup.Payloads), DeviceSetup.HasBad model payloads →
      ∀ (build : Value) (verbose : Bool), ∃ e, ∀ (now : Nat) (t : List Exchange)
        (r : Except Stop Entries) (finish : Nat),
        Procedure.Runs (DeviceSetup.configure model build payloads verbose) now t r finish ↔
          t = [] ∧ r = .error (.raised e) ∧ finish = now) := by
  constructor
  · intro s calls turns
    refine ⟨?_, ?_, ?_⟩
    · exact Session.record_after (fun s i => (s.advance_grows i).made) (fun _ _ _ => rfl) turns
    · exact Session.record_after (fun s i => (s.advance_grows i).events) (fun _ _ _ => rfl) turns
    · intro i t finish e ht hend he
      constructor
      · exact Session.notBy_of_rejection (fun _ _ h => h.made) calls turns ht hend he
      · exact Session.notBy_of_rejection (fun _ _ h => h.events) calls turns ht hend he
  · intro model payloads h build verbose
    exact DeviceSetup.runs_configure_of_bad h build verbose

namespace Session

/-- Of two calls for one device the second one is turned down while the first one waits. -/
theorem opening_busy (o : Operation) {u x : String} {a : Address} (hu : Spells u x a) :
    ∃ t finish, (((opening o a [u, u]).advance 0).advance 1).tasks[1]? = some t ∧
      t.stage = .ended finish (.error (.access (.busy o x))) := by
  let s := (opening o a [u, u]).advance 0
  have hs : s.Reachable := (opening_reachable o a [u, u]).advance 0
  obtain ⟨st, htasks, hrun, -⟩ := opening_advance o hu [u]
  have hfirst : s.tasks[0]? = some { Task.ofCall 0 (o.call u) with stage := st } := by
    rw [htasks]
    rfl
  have hholds : st.Holds ⟨o.name, x⟩ := (hs.holds hfirst (o.call_names u) hu hrun).mpr rfl
  have hstarts := opening_starts o hu hu []
  have hends := hs.locked.refused hstarts ⟨0, _, hfirst, hholds⟩
  let second := Task.ofCall 0 (o.call u)
  have hsecond : (s.advance 1).tasks[1]? = some { second with
      stage := .ended (s.atWake second).hub.now (.error (.access (.busy o x))) } := by
    rw [hends.tasks]
    exact List.getElem?_set_self (List.getElem?_eq_some_iff.mp hstarts.task).1
  exact ⟨_, _, hsecond, rfl⟩

end Session

/-- Payloads of which only the second configuration is bad. -/
def samplePayloads : DeviceSetup.Payloads where
  configurations := .list [.int 1, .int 256]
  actions := .list [.list [.int 0, .int 13, .int 2, .int 6, .int 0, .int 2]]
  templates := .list [.dict [("type", .str "toggle")]]

/-- A second call for the setup of a device is turned down while the first one waits for the device;
and a single number that is too large keeps three payloads from a device. -/
theorem rejection_without_trace_busy :
    let s := Session.opening .deviceSetup sampleAddress []
    let calls := [sampleText, sampleText].map Operation.deviceSetup.call
    let turns := [Session.Turn.wake 0, Session.Turn.wake 1]
    (∃ t finish e, ((s.opened calls).after turns).tasks[1]? = some t ∧
      t.stage = .ended finish (.error e) ∧ e.IsRejection ∧
      Session.NotBy 1 (Session.gained Session.made (s.opened calls) turns) ∧
      Session.NotBy 1 (Session.gained Session.events (s.opened calls) turns)) ∧
    DeviceSetup.HasBad (.str "S1") samplePayloads ∧
    ∃ e, ∀ (now : Nat) (t : List Exchange) (r : Except Stop Entries) (finish : Nat),
      Procedure.Runs (DeviceSetup.configure (.str "S1") .null samplePayloads false) now t r finish ↔
        t = [] ∧ r = .error (.raised e) ∧ finish = now := by
  intro s calls turns
  obtain ⟨session, setup⟩ := rejection_without_trace
  have hbad : DeviceSetup.HasBad (.str "S1") samplePayloads :=
    .configuration (v := .int 256) rfl (.tail _ (.head _)) (by decide)
  refine ⟨?_, hbad, setup _ _ hbad .null false⟩
  obtain ⟨t, finish, ht, hend⟩ := Session.opening_busy .deviceSetup spells_sample
  have hrejection : (Fault.access (.busy .deviceSetup sampleText)).IsRejection := by
    simp [Fault.IsRejection, Fault.category]
  have hquiet := (session s calls turns).2.2 1 t finish _ ht hend hrejection
  exact ⟨t, finish, _, ht, hend, hrejection, hquiet⟩

end Commissioning

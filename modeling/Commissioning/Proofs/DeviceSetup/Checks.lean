import Commissioning.DeviceSetup.Configure
import Commissioning.Proofs.Exchange.Run
import Commissioning.Proofs.InputAction.Expansion

/-!
The checks before the setup cluster is configured. All payloads are checked and compiled first, so a
single bad element in any of them keeps all of them from the device:

    configurations ─┐
    rows ───────────┼── checkRaw, compilePayload ──┬── all good ──▶ deliver
    templates ──────┘                              └── one bad ───▶ raised, nothing asked
-/
namespace Commissioning.DeviceSetup
open Procedure

/-! ### Parts of the configuration -/

/-- The build identifier that is given, else the one that the device tells. -/
def buildFor (build : Value) : Procedure Value := if build.isNull then readBuild else pure build

/-- Reads the arrays back and tells how long all has taken. -/
def readBack (level : Level) (start : Nat) : Procedure Entries := do
  let result ← DeviceSetup.read
  let finish ← .clock
  let count := match result.get Attribute.inputActions with
    | .list rows => rows.length
    | _ => 0
  .note level "DeviceSetup read back"
    [("input_actions", .int count), ("elapsed_s", elapsedValue (finish - start))]
  return result

/-- Writes checked payloads in one of the two forms. -/
def writeAll (level : Level) (structured : Bool) (payloads : Payloads) (compiled : Value) :
    Procedure Unit := do
  writePayload level structured .configurations payloads.configurations
  writePayload level structured .actions payloads.actions
  writePayload level structured .actions compiled

/-- What is done once the build identifier is known, too: it chooses the form of the writes. -/
def carryOut (model : Value) (payloads : Payloads) (compiled : Value) (level : Level) (start : Nat)
    (build : Value) : Procedure Entries := do
  let structured ← .ofLogged (supportsStructuredWrite build)
  .note level "DeviceSetup configuration"
    [("model", model), ("sw_build_id", build), ("structured_write", .bool structured)]
  writeAll level structured payloads compiled
  readBack level start

/-- What is done with payloads that have been checked. -/
def deliver (model build : Value) (payloads : Payloads) (compiled : Value) (level : Level)
    (start : Nat) : Procedure Entries :=
  buildFor build >>= carryOut model payloads compiled level start

/-- All checks come before the first request. -/
theorem configure_eq (model build : Value) (payloads : Payloads) (verbose : Bool) :
    configure model build payloads verbose = (do
      let start ← .clock
      .ofOutcome (checkRaw payloads.configurations payloads.actions)
      let compiled ← .ofLogged (compilePayload model payloads.templates)
      deliver model build payloads compiled (Level.ofVerbose verbose) start) := by
  unfold configure deliver buildFor carryOut writeAll
  cases build.isNull
  · simp only [bind_assoc, pure_bind, Bool.false_eq_true, if_false]
    rfl
  · simp only [bind_assoc, if_true]
    rfl

/-! ### Checks of payloads -/

theorem checkConfigurations_eq_ok {vs : List Value} {position : Nat} :
    checkConfigurations position vs = .ok () ↔ ∀ v ∈ vs, isOctet v := by
  induction vs generalizing position with
  | nil => simp [checkConfigurations]
  | cons v vs ih =>
    rw [checkConfigurations, List.forall_mem_cons]
    by_cases hv : isOctet v
    · simp [hv, ih]
    · simp [hv]

/-- A raw row: at least a header, all of it octets. -/
def IsRow (v : Value) : Prop :=
  ∃ row, v.items = .ok row ∧ DecodedAction.headerLength ≤ row.length ∧ ∀ x ∈ row, isOctet x

theorem checkActions_eq_ok {vs : List Value} {position : Nat} :
    checkActions position vs = .ok () ↔ ∀ v ∈ vs, IsRow v := by
  induction vs generalizing position with
  | nil => simp [checkActions]
  | cons v vs ih =>
    rw [checkActions, bind_eq_ok, List.forall_mem_cons]
    constructor
    · rintro ⟨row, hrow, h⟩
      split at h
      · next hgood =>
        rw [Bool.and_eq_true, decide_eq_true_iff, List.all_eq_true] at hgood
        exact ⟨⟨row, mapError_eq_ok.mp hrow, hgood⟩, ih.mp h⟩
      · cases h
    · rintro ⟨⟨row, hrow, hgood⟩, h⟩
      refine ⟨row, mapError_eq_ok.mpr hrow, ?_⟩
      rw [if_pos]
      · exact ih.mpr h
      · rw [Bool.and_eq_true, decide_eq_true_iff, List.all_eq_true]
        exact hgood

theorem checkRaw_eq_ok {configurations actions : Value} : checkRaw configurations actions = .ok () ↔
    ∃ vs rows, payloadItems configurations = .ok vs ∧ payloadItems actions = .ok rows ∧
      (∀ v ∈ vs, isOctet v) ∧ ∀ v ∈ rows, IsRow v := by
  rw [checkRaw, bind_eq_ok]
  constructor
  · rintro ⟨vs, hvs, h⟩
    obtain ⟨⟨⟩, hgood, h⟩ := bind_eq_ok.mp h
    obtain ⟨rows, hrows, h⟩ := bind_eq_ok.mp h
    exact ⟨vs, rows, mapError_eq_ok.mp hvs, mapError_eq_ok.mp hrows,
      checkConfigurations_eq_ok.mp hgood, checkActions_eq_ok.mp h⟩
  · rintro ⟨vs, rows, hvs, hrows, hgood, h⟩
    refine ⟨vs, mapError_eq_ok.mpr hvs, bind_eq_ok.mpr ⟨(), checkConfigurations_eq_ok.mpr hgood, ?_⟩⟩
    exact bind_eq_ok.mpr ⟨rows, mapError_eq_ok.mpr hrows, checkActions_eq_ok.mpr h⟩

theorem payloadItems_list (vs : List Value) : payloadItems (.list vs) = .ok vs := by
  cases vs <;> rfl

/-- The items of a payload that has any. -/
theorem payloadItems_of_items {payload x : Value} {vs : List Value} (h : payload.items = .ok vs)
    (hx : x ∈ vs) : payloadItems payload = .ok vs := by
  unfold payloadItems
  split
  · exact h
  · next hempty =>
    have hvs : vs = [] := by
      cases payload <;> simp_all [Value.items, Value.isTruthy]
    rw [hvs] at hx
    cases hx

theorem compilePayload_eq_ok {model templates compiled : Value} (hgiven : ¬ templates.isNull) :
    (compilePayload model templates).outcome = .ok compiled ↔
      ∃ rows, (compileInputActions templates model).outcome = .ok rows ∧
        compiled = .list (rows.map InputAction.toValue) := by
  unfold compilePayload
  rw [if_neg hgiven, Logged.bind_outcome_eq_ok]
  constructor
  · rintro ⟨rows, hrows, h⟩
    cases h
    exact ⟨rows, hrows, rfl⟩
  · rintro ⟨rows, hrows, rfl⟩
    exact ⟨rows, hrows, rfl⟩

/-- Every template that compiles is well formed at its position. -/
theorem ofFields_of_checks {index : Nat} {vs : List Value} {ts : List Template}
    (h : Checks index vs ts) {i : Nat} {v : Value} (hv : vs[i]? = some v) :
    ∃ fields t, v = .dict fields ∧ Template.ofFields (index + i) fields = .ok t := by
  induction h generalizing i with
  | nil index => simp at hv
  | @cons index fields t vs ts head _ ih =>
    cases i with
    | zero =>
      cases hv
      exact ⟨fields, t, rfl, head⟩
    | succ i =>
      obtain ⟨fields', t', hv', ht'⟩ := ih hv
      refine ⟨fields', t', hv', ?_⟩
      rw [← ht', Nat.add_right_comm, Nat.add_assoc]

/-! ### One bad element -/

/-- A payload has an element that is refused, or templates that do not compile together. -/
inductive HasBad (model : Value) (payloads : Payloads) : Prop where
  | configuration {vs : List Value} {v : Value} (items : payloads.configurations.items = .ok vs)
    (mem : v ∈ vs) (bad : ¬ isOctet v)
  | row {rows : List Value} {v : Value} (items : payloads.actions.items = .ok rows)
    (mem : v ∈ rows) (bad : ¬ IsRow v)
  | template {vs : List Value} {i : Nat} {v : Value}
    (items : templateItems payloads.templates = .ok vs) (there : vs[i]? = some v)
    (bad : ¬ ∃ fields t, v = .dict fields ∧ Template.ofFields i fields = .ok t)
  | uncompiled (given : ¬ payloads.templates.isNull)
    (bad : ¬ ∃ rows, (compileInputActions payloads.templates model).outcome = .ok rows)

theorem HasBad.fails {model : Value} {payloads : Payloads} (h : HasBad model payloads) :
    checkRaw payloads.configurations payloads.actions ≠ .ok () ∨
      ∀ compiled, (compilePayload model payloads.templates).outcome ≠ .ok compiled := by
  cases h with
  | @configuration vs v items mem bad =>
    refine .inl fun hraw => bad ?_
    obtain ⟨vs', -, hvs', -, hgood, -⟩ := checkRaw_eq_ok.mp hraw
    rw [payloadItems_of_items items mem] at hvs'
    cases hvs'
    exact hgood v mem
  | @row rows v items mem bad =>
    refine .inl fun hraw => bad ?_
    obtain ⟨-, rows', -, hrows', -, hgood⟩ := checkRaw_eq_ok.mp hraw
    rw [payloadItems_of_items items mem] at hrows'
    cases hrows'
    exact hgood v mem
  | @template vs i v items there bad =>
    refine .inr fun compiled hcompiled => bad ?_
    have hgiven : ¬ payloads.templates.isNull := by
      intro hnull
      cases htemplates : payloads.templates <;> simp [htemplates, Value.isNull] at hnull
      rw [htemplates] at items
      cases items
    obtain ⟨rows, hrows, -⟩ := (compilePayload_eq_ok hgiven).mp hcompiled
    obtain ⟨_, vs', ts, -, hvs', hchecks, -⟩ := compileInputActions_eq_ok.mp hrows
    rw [items] at hvs'
    cases hvs'
    simpa using ofFields_of_checks hchecks there
  | uncompiled given bad =>
    refine .inr fun compiled hcompiled => bad ?_
    obtain ⟨rows, hrows, -⟩ := (compilePayload_eq_ok given).mp hcompiled
    exact ⟨rows, hrows⟩

theorem runs_ofLogged_bind {α β : Type} {l : Logged α} {f : α → Procedure β} {now finish : Nat}
    {t : List Exchange} {r : Except Stop β} : Runs (ofLogged l >>= f) now t r finish ↔
      Runs ((.ofOutcome l.outcome : Procedure α) >>= f) now t r finish := by
  unfold ofLogged
  split
  · exact Iff.rfl
  · exact Iff.rfl

/-- With one bad element in any payload there is one way to go, and it asks the device nothing. -/
theorem runs_configure_of_bad {model : Value} {payloads : Payloads} (h : HasBad model payloads)
    (build : Value) (verbose : Bool) : ∃ e, ∀ (now : Nat) (t : List Exchange)
      (r : Except Stop Entries) (finish : Nat),
      Runs (configure model build payloads verbose) now t r finish ↔
        t = [] ∧ r = .error (.raised e) ∧ finish = now := by
  rw [configure_eq]
  cases hraw : checkRaw payloads.configurations payloads.actions with
  | error e => exact ⟨e, fun _ _ _ _ => Iff.rfl⟩
  | ok =>
    cases hcompiled : (compilePayload model payloads.templates).outcome with
    | ok compiled =>
      rcases h.fails with hbad | hbad
      · exact absurd hraw hbad
      · exact absurd hcompiled (hbad compiled)
    | error e =>
      refine ⟨e, fun now t r finish => runs_ofLogged_bind.trans ?_⟩
      rw [hcompiled]
      exact Iff.rfl

end Commissioning.DeviceSetup

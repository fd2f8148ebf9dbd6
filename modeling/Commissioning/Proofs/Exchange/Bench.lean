import Commissioning.Covering.Calibration
import Commissioning.Proofs.Exchange.Run
import Commissioning.Proofs.Value.Entries

/-!
A device that does what it is told: it keeps what is written to it and tells what it keeps. Only its
operational status is its own; the motor may be found running for as long as one travel may take.

    write values ──▶ attributes updated        read names ──▶ what is kept under them
    command ──────▶ motor moved, clock kept    read status ─▶ anything that is told in time

What a procedure achieves on such a device is found from its parts, request by request.
-/
namespace Commissioning
open Covering (motorStopped travelLimit)

/-- The attributes that a device keeps, and the time of the last command. -/
structure Bench where
  attributes : String → Option Value
  moved : Nat

namespace Bench

/-- An answer to a read: every name at most once, what is kept under the names that are asked for,
and nothing else. A motor that is found running is found so within the time for one travel. -/
structure Tells (b : Bench) (names : List String) (later : Nat) (values : Entries) : Prop where
  distinct : (values.map Prod.fst).Nodup
  kept : ∀ key, key ≠ Attribute.operationalStatus →
    values.get? key = if key ∈ names then b.attributes key else none
  inTime : names = [Attribute.operationalStatus] →
    (values.get Attribute.operationalStatus).equalsInt motorStopped = false →
    later ≤ b.moved + travelLimit

/-- An exchange with the device, and the device after it. -/
inductive Serves : Bench → Exchange → Bench → Prop where
  | read {b : Bench} {cluster : Cluster} {names : List String} {manufacturer : Option Int}
    {sent later : Nat} {values : Entries} (h : b.Tells names later values) :
    Serves b ⟨.read cluster names manufacturer, sent, some (later, .ok values)⟩ b
  | write (b : Bench) (cluster : Cluster) (values : Entries) (manufacturer : Option Int)
    (sent later : Nat) (answer : Entries) :
    Serves b ⟨.write cluster values manufacturer, sent, some (later, .ok answer)⟩
      { b with attributes := Entries.store b.attributes values }
  | command (b : Bench) (cluster : Cluster) (name : String) (sent later : Nat) (answer : Entries) :
    Serves b ⟨.command cluster name, sent, some (later, .ok answer)⟩ { b with moved := later }

/-- Exchanges one after the other, and the device after all of them. -/
inductive ServesAll : Bench → List Exchange → Bench → Prop where
  | nil (b : Bench) : ServesAll b [] b
  | cons {b mid b' : Bench} {x : Exchange} {t : List Exchange} (hx : Serves b x mid)
    (ht : ServesAll mid t b') : ServesAll b (x :: t) b'

theorem servesAll_append {b b' : Bench} {t₁ t₂ : List Exchange} (h : ServesAll b (t₁ ++ t₂) b') :
    ∃ mid, ServesAll b t₁ mid ∧ ServesAll mid t₂ b' := by
  induction t₁ generalizing b with
  | nil => exact ⟨b, .nil b, h⟩
  | cons x t₁ ih =>
    cases h with
    | cons hx ht =>
      obtain ⟨mid, h₁, h₂⟩ := ih ht
      exact ⟨mid, .cons hx h₁, h₂⟩

theorem serves_of_servesAll {b b' : Bench} {x : Exchange} (h : ServesAll b [x] b') :
    Serves b x b' := by
  cases h with
  | cons hx ht =>
    cases ht
    exact hx

end Bench

namespace Procedure
variable {α β : Type} {now : Nat} {b : Bench}

/-- A procedure gives a result on the device unless it is given up, and then something holds of the
result, of the time and of the device. -/
def Achieves (p : Procedure α) (now : Nat) (b : Bench) (Q : α → Nat → Bench → Prop) : Prop :=
  ∀ t r finish b', Runs p now t r finish → b.ServesAll t b' → r ≠ .error .cancelled →
    ∃ a, r = .ok a ∧ Q a finish b'

theorem achieves_pure {a : α} {Q : α → Nat → Bench → Prop} (h : Q a now b) :
    Achieves (pure a) now b Q := by
  rintro t r finish b' ⟨rfl, rfl, rfl⟩ hs -
  cases hs
  exact ⟨a, rfl, h⟩

theorem Achieves.mono {p : Procedure α} {Q Q' : α → Nat → Bench → Prop} (h : Achieves p now b Q)
    (hq : ∀ a finish b', Q a finish b' → Q' a finish b') : Achieves p now b Q' := by
  intro t r finish b' hr hs hc
  obtain ⟨a, rfl, ha⟩ := h t r finish b' hr hs hc
  exact ⟨a, rfl, hq a finish b' ha⟩

theorem achieves_bind {p : Procedure α} {f : α → Procedure β} {Q : β → Nat → Bench → Prop}
    (h : Achieves p now b fun a mid b' => Achieves (f a) mid b' Q) : Achieves (p >>= f) now b Q := by
  intro t r finish b' hr hs hc
  rcases runs_bind.mp hr with ⟨a, t₁, t₂, mid, h₁, h₂, rfl⟩ | ⟨stop, h₁, rfl⟩
  · obtain ⟨c, hs₁, hs₂⟩ := Bench.servesAll_append hs
    obtain ⟨a', ha, hf⟩ := h t₁ _ mid c h₁ hs₁ nofun
    cases ha
    exact hf t₂ r finish b' h₂ hs₂ hc
  · obtain ⟨a, ha, -⟩ := h t _ finish b' h₁ hs (by simpa using hc)
    cases ha

theorem achieves_pause {ms : Nat} {Q : Unit → Nat → Bench → Prop}
    (h : ∀ later, now + ms ≤ later → Q () later b) : Achieves (pause ms) now b Q := by
  intro t r finish b' hr hs hc
  obtain ⟨rfl, ⟨-, rfl⟩ | ⟨hl, rfl⟩⟩ := runs_pause.mp hr
  · exact absurd rfl hc
  · cases hs
    exact ⟨(), rfl, h finish hl⟩

theorem achieves_clock {Q : Nat → Nat → Bench → Prop} (h : Q now now b) :
    Achieves clock now b Q := by
  rintro t r finish b' ⟨rfl, rfl, rfl⟩ hs -
  cases hs
  exact ⟨_, rfl, h⟩

theorem achieves_log {lines : Log} {Q : Unit → Nat → Bench → Prop} (h : Q () now b) :
    Achieves (log lines) now b Q := by
  rintro t r finish b' ⟨rfl, rfl, rfl⟩ hs -
  cases hs
  exact ⟨(), rfl, h⟩

theorem achieves_note {level : Level} {message : String} {entries : Entries}
    {Q : Unit → Nat → Bench → Prop} (h : Q () now b) :
    Achieves (note level message entries) now b Q := achieves_log h

theorem achieves_read {cluster : Cluster} {names : List String} {manufacturer : Option Int}
    {Q : Entries → Nat → Bench → Prop}
    (h : ∀ later values, now ≤ later → b.Tells names later values → Q values later b) :
    Achieves (read cluster names manufacturer) now b Q := by
  intro t r finish b' hr hs hc
  obtain ⟨hf, ⟨rfl, rfl⟩ | ⟨answer, rfl, rfl⟩⟩ := runs_send.mp hr
  · exact absurd rfl hc
  · cases Bench.serves_of_servesAll hs with
    | read htold => exact ⟨_, rfl, h finish _ hf htold⟩

theorem achieves_write {cluster : Cluster} {values : Entries} {manufacturer : Option Int}
    {Q : Unit → Nat → Bench → Prop}
    (h : ∀ later, now ≤ later →
      Q () later { b with attributes := Entries.store b.attributes values }) :
    Achieves (write cluster values manufacturer) now b Q := by
  intro t r finish b' hr hs hc
  obtain ⟨hf, ⟨rfl, rfl⟩ | ⟨answer, rfl, rfl⟩⟩ := runs_request.mp hr
  · exact absurd rfl hc
  · cases Bench.serves_of_servesAll hs
    exact ⟨(), rfl, h finish hf⟩

theorem achieves_command {cluster : Cluster} {name : String} {Q : Unit → Nat → Bench → Prop}
    (h : ∀ later, now ≤ later → Q () later { b with moved := later }) :
    Achieves (command cluster name) now b Q := by
  intro t r finish b' hr hs hc
  obtain ⟨hf, ⟨rfl, rfl⟩ | ⟨answer, rfl, rfl⟩⟩ := runs_request.mp hr
  · exact absurd rfl hc
  · cases Bench.serves_of_servesAll hs
    exact ⟨(), rfl, h finish hf⟩

end Procedure

/-! ### There is a run -/

/-- Whether a request is one that the device serves. -/
def Request.Servable : Request → Prop
  | .read _ names _ => names.Nodup
  | .write .. | .command .. => True
  | .writeStructured .. => False

/-- What the device tells while its motor stands still. -/
def Bench.answer (b : Bench) (names : List String) : Entries := names.filterMap fun key =>
  (if key = Attribute.operationalStatus then some (.int motorStopped) else b.attributes key).map
    (key, ·)

theorem Bench.tells_answer (b : Bench) {names : List String} (hn : names.Nodup) (later : Nat) :
    b.Tells names later (b.answer names) where
  distinct := Entries.keys_nodup _ hn
  kept key hk := by rw [answer, Entries.get?_keys, if_neg hk]
  inTime hnames hrun := by
    subst hnames
    cases hrun

/-- Every procedure whose requests are served has a run that is not given up. -/
theorem Procedure.exists_served {α : Type} {p : Procedure α} (hp : Sends Request.Servable p)
    (now : Nat) (b : Bench) : ∃ t r finish b', Runs p now t r finish ∧ b.ServesAll t b' ∧
      r ≠ .error .cancelled := by
  induction p generalizing now b with
  | done a => exact ⟨[], _, now, b, ⟨rfl, rfl, rfl⟩, .nil b, nofun⟩
  | fail e => exact ⟨[], _, now, b, ⟨rfl, rfl, rfl⟩, .nil b, nofun⟩
  | ask e next ih =>
    cases e with
    | exchange q =>
      obtain ⟨hq, hnext⟩ := hp
      obtain ⟨answer, mid, hmid⟩ : ∃ answer mid, b.Serves ⟨q, now, some (now, .ok answer)⟩ mid := by
        cases q with
        | read cluster names manufacturer =>
          exact ⟨_, b, .read (b.tells_answer hq now)⟩
        | write cluster values manufacturer => exact ⟨[], _, .write b ..⟩
        | command cluster name => exact ⟨[], _, .command b ..⟩
        | writeStructured => exact hq.elim
      obtain ⟨t, r, finish, b', hr, hs, hc⟩ := ih _ (hnext (.ok answer)) now mid
      exact ⟨_ :: t, r, finish, b', .inr ⟨now, _, t, Nat.le_refl _, rfl, hr⟩, .cons hmid hs, hc⟩
    | pause ms =>
      obtain ⟨t, r, finish, b', hr, hs, hc⟩ := ih () hp (now + ms) b
      exact ⟨t, r, finish, b', .inr ⟨now + ms, Nat.le_refl _, hr⟩, hs, hc⟩
    | clock => exact ih now (hp now) now b
    | log lines => exact ih () hp now b

end Commissioning

import Commissioning.Device.Activity
import Commissioning.Proofs.Lookup

/-!
How a request starts, and how an activity comes to wait. A procedure that opens with a request
waits there if the cluster takes time for its reply. The call takes one reaction off the script of
its cluster and changes nothing else, so a device that is slow for several calls stays slow for one
call less.

    slow for n + 1 calls ── clock, log ──▶ request ──▶ call under way, slow for n calls
-/
namespace Commissioning

namespace Device
variable {f : ClusterState → ClusterState}

theorem place_inj {c c' : Cluster} (h : place c = place c') : c = c' := by
  cases c <;> cases c' <;> first | rfl | exact absurd h (by decide)

theorem cluster_update (d : Device) (c c' : Cluster) : (d.update (place c) f).cluster c' =
    if c' = c then (d.cluster c').map f else d.cluster c' := by
  have hlookup : (d.update (place c) f).clusters.lookup (place c') =
      (d.clusters.lookup (place c')).map fun s => if place c' = place c then f s else s :=
    lookup_map (fun p s => if p = place c then f s else s) d.clusters (place c')
  unfold cluster
  rw [hlookup]
  by_cases h : c' = c
  · subst h
    cases hl : d.clusters.lookup (place c') <;> simp [update] <;> split <;> rfl
  · have hp : place c' ≠ place c := mt place_inj h
    cases hl : d.clusters.lookup (place c') <;> simp [update, h, hp]

end Device

namespace Hub
variable {a : Address}

theorem device?_update {f : Device → Device} (hf : ∀ d, (f d).address = d.address) (h : Hub) :
    (h.update a f).device? a = (h.device? a).map f := by
  unfold device? update
  induction h.devices with
  | nil => rfl
  | cons d ds ih =>
    by_cases hd : d.address = a
    · simp [hd, hf]
    · simpa [hd] using ih

theorem device?_update_cluster (h : Hub) (c : Cluster) (f : ClusterState → ClusterState) :
    (h.update a fun d => d.update (Device.place c) f).device? a =
      (h.device? a).map fun d => d.update (Device.place c) f :=
  device?_update (f := fun d => d.update (Device.place c) f) (fun _ => rfl) h

theorem cluster_update (h : Hub) (c c' : Cluster) (f : ClusterState → ClusterState) :
    (h.update a fun d => d.update (Device.place c) f).cluster a c' =
      if c' = c then (h.cluster a c').map f else h.cluster a c' := by
  unfold cluster
  rw [device?_update_cluster]
  cases h.device? a with
  | none => simp [Except.map]
  | some d => exact d.cluster_update c c'

/-- The clusters of a device of some model take time for each of the next `n` calls. -/
structure Slow (h : Hub) (a : Address) (model : Value) (n : Nat) : Prop where
  limit : 0 < h.limit
  device : ∃ d, h.device? a = some d ∧ d.address = a ∧ d.model = model
  late : ∀ c, ∃ s, h.cluster a c = .ok s ∧ n ≤ s.script.length ∧ ∀ r ∈ s.script, 0 < r.delay

variable {h : Hub} {model : Value} {n : Nat} {q : Request} {call : ClusterCall}
  {c : Cluster} {s : ClusterState} {r : Reaction} {script : List Reaction}

/-- How a request starts, and the hub after that. Without its cluster, or with values that do not
fit, nothing happens; one that is refused is only logged; any other one becomes a call. -/
inductive Begins (h : Hub) (a : Address) (q : Request) : Opening × Hub → Prop where
  | missing {e : LinkError} (hc : h.cluster a q.cluster = .error e) :
    Begins h a q (.closed (.error (.link e)), h)
  | unfit {e : Mismatch} (hq : ClusterCall.ofRequest q = .error e) :
    Begins h a q (.closed (.error (.mismatch e)), h)
  | refused {e : LinkError} (hr : refusal? q = some e) :
    Begins h a q (.closed (.error (.link e)), h.write [q.line])
  | opened {s : ClusterState} {call : ClusterCall} (hc : h.cluster a q.cluster = .ok s)
    (hq : ClusterCall.ofRequest q = .ok call) (hr : refusal? q = none) :
    Begins h a q (.opened ((h.write [q.line]).call a q.cluster s q call).1,
      ((h.write [q.line]).call a q.cluster s q call).2)

theorem begins (h : Hub) (a : Address) (q : Request) : h.Begins a q (h.begin a q) := by
  unfold begin
  cases hc : h.cluster a q.cluster with
  | error e => exact .missing hc
  | ok s =>
    cases hq : ClusterCall.ofRequest q with
    | error e => exact .unfit hq
    | ok call =>
      cases hr : refusal? q with
      | some e => exact .refused hr
      | none => exact .opened hc hq hr

/-- A reaction that has been taken is missing from one script only. -/
theorem Slow.take (hs : h.Slow a model (n + 1)) (hc : h.cluster a c = .ok s)
    (hscript : s.script = r :: script) : (h.update a fun d =>
      d.update (Device.place c) fun _ => { s with script }).Slow a model n := by
  constructor
  · exact hs.limit
  · obtain ⟨d, hd, haddress, hmodel⟩ := hs.device
    rw [device?_update_cluster, hd]
    exact ⟨_, rfl, haddress, hmodel⟩
  · intro c'
    rw [cluster_update]
    obtain ⟨s', hc', hlen, hdelay⟩ := hs.late c'
    by_cases h' : c' = c
    · subst h'
      rw [hc] at hc'
      cases hc'
      rw [if_pos rfl, hc]
      rw [hscript] at hlen hdelay
      exact ⟨_, rfl, Nat.le_of_succ_le_succ hlen, fun r' hr' => hdelay r' (.tail _ hr')⟩
    · rw [if_neg h']
      exact ⟨s', hc', Nat.le_of_succ_le hlen, hdelay⟩

theorem begin_of_slow (hs : h.Slow a model (n + 1)) (hq : ClusterCall.ofRequest q = .ok call)
    (hr : refusal? q = none) :
    ∃ x h', h.begin a q = (.opened x, h') ∧ 0 < h'.duration x ∧ h'.Slow a model n := by
  obtain ⟨s, hc, hlen, hdelay⟩ := hs.late q.cluster
  cases hscript : s.script with
  | nil => simp [hscript] at hlen
  | cons r script =>
    simp only [begin, hc, hq, hr, Hub.call, ClusterState.react, hscript]
    refine ⟨_, _, rfl, ?_, ?_⟩
    · have hpos : 0 < r.delay := hdelay r (hscript ▸ .head _)
      have hlimit : 0 < h.limit := hs.limit
      change 0 < r.duration h.limit
      unfold Reaction.duration
      split <;> assumption
    · have htake := hs.take hc hscript
      exact ⟨htake.limit, htake.device, htake.late⟩

end Hub

namespace Procedure
variable {α β : Type}

/-- A procedure opens with a request that can be sent, after steps that take no time. -/
inductive Opens : Procedure α → Prop where
  | request {q : Request} {call : ClusterCall} (next : Outcome Entries → Procedure α)
    (hq : ClusterCall.ofRequest q = .ok call) (hr : Hub.refusal? q = none) :
    Opens (.ask (.exchange q) next)
  | clock {next : Nat → Procedure α} (h : ∀ t, Opens (next t)) : Opens (.ask .clock next)
  | log {lines : Log} {next : Unit → Procedure α} (h : Opens (next ())) :
    Opens (.ask (.log lines) next)

end Procedure

namespace Activity
variable {α : Type} {a : Address} {model : Value} {n : Nat} {p : Procedure α}

/-- A procedure that opens with a request to a slow device is under way once it has started. -/
theorem start_of_slow (hp : p.Opens) {h : Hub} (hs : h.Slow a model (n + 1)) :
    (start a h p).1.wake?.isSome ∧ (start a h p).2.Slow a model n := by
  induction hp generalizing h with
  | request next hq hr =>
    obtain ⟨x, h', hbegin, hpos, hslow⟩ := Hub.begin_of_slow hs hq hr
    simp only [start, hbegin, if_neg (Nat.ne_of_gt hpos)]
    exact ⟨rfl, hslow⟩
  | clock _ ih => exact ih h.now hs
  | log _ ih => exact ih ⟨hs.limit, hs.device, hs.late⟩

end Activity

end Commissioning

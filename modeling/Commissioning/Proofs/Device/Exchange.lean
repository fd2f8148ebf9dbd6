import Commissioning.Proofs.Device.Opening

/-!
One exchange from its start to its end. If the cluster is there and the request fits, one call is
made; the cluster takes its next reaction, and what it answers is the reply unless it comes too late:

    cluster ── react ──┬─ late ─────▶ no reply, nothing stored
                       └─ in time ──▶ its reply, and what it stores

Another cluster has no part in it, and neither has the log.
-/
namespace Commissioning

/-- The reply to the next call of a cluster, and the cluster after that. -/
def ClusterState.serve (s : ClusterState) (call : ClusterCall) (limit : Nat) :
    Reply × ClusterState :=
  if s.react.1.isLate limit then (.failed "", s.react.2) else s.react.2.reply call s.react.1

namespace Reaction
variable {r : Reaction} {limit : Nat}

theorem isLate_eq_false (hlimit : limit = Hub.defaultLimit)
    (h : r.delay < 10000) : r.isLate limit = false := by
  simp only [isLate, hlimit, Hub.defaultLimit, Bool.and_eq_false_iff, decide_eq_false_iff_not]
  omega

theorem isLate_eq_true (hlimit : limit = Hub.defaultLimit)
    (h : 10000 ≤ r.delay) : r.isLate limit = true := by
  simp only [isLate, hlimit, Hub.defaultLimit, Bool.and_eq_true, decide_eq_true_eq]
  omega

end Reaction

namespace ClusterState
variable {s : ClusterState} {call : ClusterCall} {r : Reaction}

theorem reply_of_failure {cause : String} (hr : s.failure? call r = some cause) :
    s.reply call r = (.failed cause, s) := by
  simp only [reply, hr]

/-- A call that goes on any wire fails only if its reaction tells so. -/
theorem failure?_of_unwired (hcall : call.unwired? = none) : s.failure? call r = r.failure := by
  simp [failure?, hcall]

/-- A read carries no array. -/
theorem failure?_read (names : List String) (m : Option Int) :
    s.failure? (.read names m) r = r.failure := failure?_of_unwired rfl

theorem failure?_eq_none : s.failure? call r = none ↔
    (s.wired = true → call.unwired? = none) ∧ r.failure = none := by
  cases hwired : s.wired <;> simp [failure?, hwired]

/-- A cluster that has taken its reaction is reached in the same way. -/
theorem failure?_react : s.react.2.failure? call r = s.failure? call r := by
  have hwired : s.react.2.wired = s.wired := by
    unfold react
    split <;> rfl
  simp only [failure?, hwired]

end ClusterState

theorem Reply.outcome_failed (q : Request) (cause : String) :
    (failed cause).outcome q = .error (.link (linkError q cause)) := by
  cases q <;> rfl

namespace Hub
variable {h : Hub} {a : Address} {c : Cluster} {q : Request} {call : ClusterCall} {s : ClusterState}

theorem exchange_missing {e : LinkError} (he : h.cluster a q.cluster = .error e) :
    h.exchange a q = (.error (.link e), h) := by
  simp only [exchange, begin, he]

/-- An exchange with a cluster that is there: its outcome, the cluster after it and the call that
has been made. -/
theorem exchange_served (hs : h.cluster a q.cluster = .ok s)
    (hcall : ClusterCall.ofRequest q = .ok call) (hq : refusal? q = none) :
    (h.exchange a q).1 = (s.serve call h.limit).1.outcome q ∧
      (h.exchange a q).2.cluster a q.cluster = .ok (s.serve call h.limit).2 ∧
      (h.exchange a q).2.limit = h.limit ∧
      (h.exchange a q).2.calls =
        h.calls ++ [⟨h.now, q.cluster.endpoint, q.cluster.id, call⟩] := by
  -- the call is made in `h₁`, and its time is over in `h₂`
  let x : OpenCall := ⟨q, call, s.react.1⟩
  let h₁ : Hub := ((h.write [q.line]).call a q.cluster s q call).2
  let h₂ : Hub := h₁.wait (h₁.duration x)
  have hexchange : h.exchange a q = h₂.finish a x := by
    simp only [Hub.exchange, begin, hs, hcall, hq]
    rfl
  have hcluster : h₂.cluster a q.cluster = .ok s.react.2 := by
    have hupdate := (h.write [q.line]).cluster_update (a := a) q.cluster q.cluster
      fun _ => s.react.2
    have hwrite : (h.write [q.line]).cluster a q.cluster = .ok s := hs
    rw [if_pos rfl, hwrite] at hupdate
    exact hupdate
  rw [hexchange, finish]
  cases hlate : s.react.1.isLate h.limit with
  | true =>
    have hserve : s.serve call h.limit = (.failed "", s.react.2) := by
      rw [ClusterState.serve, if_pos hlate]
    have hreply : h₂.reply a x = (.failed "", h₂) := if_pos hlate
    rw [hreply, hserve]
    exact ⟨rfl, hcluster, rfl, rfl⟩
  | false =>
    have hserve : s.serve call h.limit = s.react.2.reply call s.react.1 := by
      rw [ClusterState.serve, hlate]
      rfl
    have hreply : h₂.reply a x = ((s.react.2.reply call s.react.1).1, h₂.update a fun d =>
        d.update (Device.place q.cluster) fun _ => (s.react.2.reply call s.react.1).2) := by
      have hcluster' : h₂.cluster a x.request.cluster = .ok s.react.2 := hcluster
      have hlate' : x.reaction.isLate h₂.limit = false := hlate
      unfold reply
      rw [hlate', hcluster']
      rfl
    have hupdate := h₂.cluster_update (a := a) q.cluster q.cluster
      fun _ => (s.react.2.reply call s.react.1).2
    rw [if_pos rfl, hcluster] at hupdate
    rw [hreply, hserve]
    exact ⟨rfl, hupdate, rfl, rfl⟩

/-- A request whose call is given up or fails comes out as a failed exchange. -/
theorem exchange_unanswered (hs : h.cluster a q.cluster = .ok s)
    (hcall : ClusterCall.ofRequest q = .ok call) (hq : refusal? q = none)
    (hr : s.react.1.isLate h.limit ∨ (s.failure? call s.react.1).isSome) :
    ∃ cause, (h.exchange a q).1 = .error (.link (Reply.linkError q cause)) := by
  have hreply : ∃ cause, (s.serve call h.limit).1 = .failed cause := by
    unfold ClusterState.serve
    by_cases hlate : s.react.1.isLate h.limit
    · exact ⟨"", by rw [if_pos hlate]⟩
    · obtain ⟨cause, hcause⟩ := Option.isSome_iff_exists.mp (hr.resolve_left hlate)
      rw [← ClusterState.failure?_react] at hcause
      exact ⟨cause, by rw [if_neg hlate, ClusterState.reply_of_failure hcause]⟩
  obtain ⟨cause, hcause⟩ := hreply
  refine ⟨cause, ?_⟩
  rw [(exchange_served hs hcall hq).1, hcause, Reply.outcome_failed]

theorem cluster_finish_of_ne {x : OpenCall} (hc : c ≠ x.request.cluster) :
    (h.finish a x).2.cluster a c = h.cluster a c ∧ (h.finish a x).2.limit = h.limit := by
  have hreply : (h.reply a x).2.cluster a c = h.cluster a c ∧ (h.reply a x).2.limit = h.limit := by
    unfold reply
    split
    · exact ⟨rfl, rfl⟩
    · split
      · exact ⟨rfl, rfl⟩
      · refine ⟨?_, rfl⟩
        dsimp only
        rw [cluster_update, if_neg hc]
  exact hreply

/-- An exchange with one cluster leaves the others alone. -/
theorem cluster_exchange_of_ne (hc : c ≠ q.cluster) :
    (h.exchange a q).2.cluster a c = h.cluster a c ∧ (h.exchange a q).2.limit = h.limit := by
  unfold Hub.exchange
  have hbegins := h.begins a q
  generalize h.begin a q = r at hbegins ⊢
  cases hbegins with
  | missing => exact ⟨rfl, rfl⟩
  | unfit => exact ⟨rfl, rfl⟩
  | refused => exact ⟨rfl, rfl⟩
  | @opened s call =>
    let made := (h.write [q.line]).call a q.cluster s q call
    have hcalled : made.2.cluster a c = h.cluster a c :=
      (cluster_update (h.write [q.line]) q.cluster c _).trans (if_neg hc)
    obtain ⟨hcluster, hlimit⟩ := cluster_finish_of_ne (h := made.2.wait (made.2.duration made.1))
      (a := a) (x := made.1) (c := c) hc
    exact ⟨hcluster.trans hcalled, hlimit⟩

/-- What comes out of a call depends on its cluster and on the time it may take. -/
theorem finish_congr {h' : Hub} {x : OpenCall} (hlimit : h'.limit = h.limit)
    (hcluster : h'.cluster a x.request.cluster = h.cluster a x.request.cluster) :
    (h'.finish a x).1 = (h.finish a x).1 := by
  have hreply : (h'.reply a x).1 = (h.reply a x).1 := by
    simp only [reply, hlimit, hcluster]
    split
    · rfl
    · cases h.cluster a x.request.cluster <;> rfl
  exact congrArg (fun reply => reply.outcome x.request) hreply

/-- The log has no say in what comes out of an exchange. -/
theorem exchange_write (h : Hub) (lines : Log) (a : Address) (q : Request) :
    ((h.write lines).exchange a q).1 = (h.exchange a q).1 := by
  have hcluster : (h.write lines).cluster a q.cluster = h.cluster a q.cluster := rfl
  simp only [exchange, begin, hcluster]
  cases h.cluster a q.cluster with
  | error e => rfl
  | ok s =>
    cases ClusterCall.ofRequest q with
    | error e => rfl
    | ok call =>
      cases refusal? q with
      | some e => rfl
      | none => exact finish_congr rfl rfl

/-- A hub with one device that has these clusters. -/
def single (a : Address) (clusters : List (Cluster × ClusterState)) : Hub where
  now := 0
  limit := defaultLimit
  devices := [{
    address := a
    label := a.text
    model := .null
    clusters := clusters.map fun (c, s) => (Device.place c, s)
    endpoints := clusters.map fun (c, _) => c.endpoint }]
  calls := []
  log := []

theorem cluster_single {clusters : List (Cluster × ClusterState)}
    (hc : clusters.lookup c = some s) : (single a clusters).cluster a c = .ok s := by
  have hdevice : (single a clusters).device? a = (single a clusters).devices.head? := by
    simp [device?, single]
  have hendpoint : (clusters.map fun (c, _) => c.endpoint).contains c.endpoint = true := by
    rw [List.contains_iff_mem]
    exact List.mem_map.mpr ⟨(c, s), mem_of_lookup hc, rfl⟩
  have hplace : (clusters.map fun (c, s) => (Device.place c, s)).lookup (Device.place c) =
      some s := by
    rw [← hc]
    clear hc hdevice hendpoint
    induction clusters with
    | nil => rfl
    | cons entry clusters ih =>
      obtain ⟨c', s'⟩ := entry
      rw [List.map_cons, List.lookup_cons, List.lookup_cons, ih]
      by_cases h : c = c'
      · simp [h]
      · have hplaces : Device.place c ≠ Device.place c' := mt Device.place_inj h
        rw [beq_false_of_ne h, beq_false_of_ne hplaces]
  rw [cluster, hdevice]
  simp only [single, List.head?_cons, Device.cluster, hendpoint, hplace]
  rfl

end Hub

/-! ### Procedures made of exchanges -/

namespace Procedure
variable {α β : Type} {a : Address} {p : Procedure α} {f : α → Procedure β} {x : α}

theorem perform_bind_ok {h h' : Hub} (hp : p.perform a h = (.ok x, h')) :
    (p >>= f).perform a h = (f x).perform a h' := by
  change Procedure.perform a h (p.bind f) = _
  induction p generalizing h with
  | done y =>
    cases hp
    rfl
  | fail e => cases hp
  | ask e next ih =>
    cases e with
    | exchange q => exact ih _ hp
    | pause ms => exact ih () hp
    | clock => exact ih h.now hp
    | log lines => exact ih () hp

theorem perform_bind_error {h h' : Hub} {e : Fault} (hp : p.perform a h = (.error e, h')) :
    (p >>= f).perform a h = (.error e, h') := by
  change Procedure.perform a h (p.bind f) = _
  induction p generalizing h with
  | done y => cases hp
  | fail e =>
    cases hp
    rfl
  | ask e next ih =>
    cases e with
    | exchange q => exact ih _ hp
    | pause ms => exact ih () hp
    | clock => exact ih h.now hp
    | log lines => exact ih () hp

theorem perform_ofLogged (l : Logged α) (h : Hub) :
    (ofLogged l).perform a h = (l.outcome, h.write l.log) := by
  obtain ⟨lines, outcome⟩ := l
  cases lines with
  | nil =>
    have hwrite : h.write [] = h := by rw [Hub.write, List.append_nil]
    rw [hwrite]
    cases outcome <;> rfl
  | cons line lines => cases outcome <;> rfl

theorem perform_exchange (h : Hub) (q : Request) (next : Outcome Entries → Procedure α) :
    Procedure.perform a h (.ask (.exchange q) next) =
      Procedure.perform a (h.exchange a q).2 (next (h.exchange a q).1) := rfl

theorem perform_send (h : Hub) (q : Request) : (send q).perform a h = h.exchange a q := by
  rw [send, perform_exchange]
  generalize h.exchange a q = r
  obtain ⟨outcome, h'⟩ := r
  cases outcome <;> rfl

/-- Sends a write of either form, with nothing to be told but that it has been accepted. -/
theorem perform_write (a : Address) (h : Hub) (q : Request) :
    (do let _ ← send q : Procedure Unit).perform a h =
      ((h.exchange a q).1.map fun _ => (), (h.exchange a q).2) := by
  have hsend := perform_send (a := a) h q
  cases houtcome : (h.exchange a q).1 with
  | ok values => exact perform_bind_ok (hsend.trans (Prod.ext houtcome rfl))
  | error e => exact perform_bind_error (hsend.trans (Prod.ext houtcome rfl))

end Procedure

end Commissioning

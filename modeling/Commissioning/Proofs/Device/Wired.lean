import Commissioning.Proofs.Device.Keeping

/-!
Clusters behind a wire. A cluster stays there whatever is asked of it, and what has no place on the wire
fails there: nothing is stored, and the cluster keeps what it has.

    write ── arrays on the wire? ──┬─ yes ─▶ the cluster reacts
                                   └─ no ──▶ failed exchange ── the procedure fails
-/
namespace Commissioning

namespace ClusterState
variable {s : ClusterState} {call : ClusterCall} {limit : Nat} {e : Mismatch}

theorem wired_react : s.react.2.wired = s.wired := by
  unfold react
  split <;> rfl

theorem wired_readAll (s : ClusterState) (names : List String) (found failed : Entries) :
    (s.readAll names found failed).2.wired = s.wired := by
  induction names generalizing s found failed with
  | nil => rfl
  | cons name names ih =>
    have hnext : (s.next? name).2.wired = s.wired := by
      unfold next?
      split <;> rfl
    rw [readAll]
    split
    · next heq => rw [ih, ← hnext, heq]
    · next heq => rw [ih, ← hnext, heq]

theorem wired_reply (s : ClusterState) (call : ClusterCall) (r : Reaction) :
    (s.reply call r).2.wired = s.wired := by
  unfold reply
  split
  · rfl
  · split
    · split
      · rfl
      · exact wired_readAll s _ [] []
    · rfl
    · dsimp only
      split
      · cases call <;> rfl
      · rfl

theorem wired_serve : (s.serve call limit).2.wired = s.wired := by
  unfold serve
  split
  · exact wired_react
  · exact (wired_reply _ call _).trans wired_react

/-- A call that has no place on the wire fails. -/
theorem failure?_of_wired (hs : s.wired = true) (hcall : call.unwired? = some e) (r : Reaction) :
    s.failure? call r = some e.message := by
  simp [failure?, hs, hcall]

end ClusterState

namespace Hub
variable {h : Hub} {a : Address} {c : Cluster} {q : Request} {call : ClusterCall} {e : Mismatch}
  {values : Entries}

/-- A cluster of a device is behind a wire. -/
def Wired (h : Hub) (a : Address) (c : Cluster) : Prop :=
  ∃ s, h.cluster a c = .ok s ∧ s.wired = true

/-- An exchange leaves it there. -/
theorem Wired.exchange (hw : h.Wired a c) (q : Request) : (h.exchange a q).2.Wired a c := by
  obtain ⟨s, hs, hwired⟩ := hw
  by_cases hc : c = q.cluster
  · subst hc
    cases hcall : ClusterCall.ofRequest q with
    | error e =>
      refine ⟨s, ?_, hwired⟩
      simp only [Hub.exchange, begin, hs, hcall]
    | ok call =>
      cases hq : refusal? q with
      | some e =>
        refine ⟨s, ?_, hwired⟩
        simp only [Hub.exchange, begin, hs, hcall, hq]
        exact hs
      | none =>
        exact ⟨_, (exchange_served hs hcall hq).2.1, ClusterState.wired_serve.trans hwired⟩
  · exact ⟨s, (cluster_exchange_of_ne hc).1.trans hs, hwired⟩

/-- So does a whole procedure. -/
theorem Wired.perform {α : Type} (hw : h.Wired a c) (p : Procedure α) :
    (p.perform a h).2.Wired a c := by
  induction p generalizing h with
  | done x => exact hw
  | fail e => exact hw
  | ask step next ih =>
    cases step with
    | exchange q => exact ih _ (hw.exchange q)
    | pause ms => exact ih () hw
    | clock => exact ih h.now hw
    | log lines => exact ih () hw

/-- What has no place on the wire is a failed exchange that stores nothing. -/
theorem Holds.exchange_unwired (hh : h.Holds a q.cluster values) (hw : h.Wired a q.cluster)
    (hcall : ClusterCall.ofRequest q = .ok call) (hq : refusal? q = none)
    (hwire : call.unwired? = some e) :
    (h.exchange a q).1 = .error (.link (Reply.linkError q e.message)) ∧
      (h.exchange a q).2.Holds a q.cluster values := by
  obtain ⟨s, hs, hkeeps, hvalues⟩ := hh
  obtain ⟨s', hs', hwired⟩ := hw
  obtain rfl := Except.ok.inj (hs.symm.trans hs')
  obtain ⟨hr, hkeeps', hvalues'⟩ := hkeeps.react
  have hserve : s.serve call h.limit = (.failed e.message, s.react.2) := by
    rw [ClusterState.serve, hr.inTime, if_neg Bool.false_ne_true]
    refine ClusterState.reply_of_failure ?_
    rw [ClusterState.failure?_react]
    exact ClusterState.failure?_of_wired hwired hwire _
  obtain ⟨houtcome, hcluster, hlimit, -⟩ := exchange_served hs hcall hq
  rw [hserve] at houtcome hcluster
  exact ⟨houtcome.trans (Reply.outcome_failed q e.message), s.react.2, hcluster, hlimit ▸ hkeeps',
    hvalues'.trans hvalues⟩

end Hub

namespace Procedure
variable {α β : Type} {a : Address} {c : Cluster} {p : Procedure α} {f : α → Procedure β}
  {values mid after : Entries} {x : α}

/-- A procedure fails at a cluster behind a wire, and takes it from values that it keeps to other
ones. -/
def Fails (a : Address) (c : Cluster) (p : Procedure α) (values after : Entries) : Prop :=
  ∀ h : Hub, h.Holds a c values → h.Wired a c →
    ∃ e h', p.perform a h = (.error (.link e), h') ∧ h'.Holds a c after

theorem fails_bind_left (hp : Fails a c p values after) : Fails a c (p >>= f) values after := by
  intro h hh hw
  obtain ⟨e, h', hrun, hh'⟩ := hp h hh hw
  exact ⟨e, h', perform_bind_error hrun, hh'⟩

theorem fails_bind (hp : Leads a c p values (.ok x) mid) (hf : Fails a c (f x) mid after) :
    Fails a c (p >>= f) values after := by
  intro h hh hw
  obtain ⟨h₁, hrun, hh₁⟩ := hp h hh
  have hw₁ : h₁.Wired a c := by
    have hwired := hw.perform p
    rwa [hrun] at hwired
  obtain ⟨e, h₂, hrun', hh₂⟩ := hf h₁ hh₁ hw₁
  exact ⟨e, h₂, (perform_bind_ok hrun).trans hrun', hh₂⟩

/-- What has no place on the wire is not sent. -/
theorem fails_send {q : Request} {call : ClusterCall} {fault : Mismatch}
    (hcall : ClusterCall.ofRequest q = .ok call) (hq : Hub.refusal? q = none)
    (hwire : call.unwired? = some fault) :
    Fails a q.cluster (do let _ ← send q) values values := by
  intro h hh hw
  obtain ⟨houtcome, hh'⟩ := hh.exchange_unwired hw hcall hq hwire
  have hsend : (send q).perform a h =
      (.error (.link (Reply.linkError q fault.message)), (h.exchange a q).2) :=
    (perform_send h q).trans (Prod.ext houtcome rfl)
  exact ⟨_, _, perform_bind_error hsend, hh'⟩

end Procedure

end Commissioning

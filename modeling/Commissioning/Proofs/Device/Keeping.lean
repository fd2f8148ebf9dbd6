import Commissioning.Proofs.Device.Exchange
import Commissioning.Proofs.Device.Received
import Commissioning.Proofs.Exchange.Run
import Commissioning.Proofs.Value.Entries

/-!
A cluster that accepts every call: it answers in time, reads from its values, stores what is written
and acknowledges it in any of the forms that a reply has. What a procedure makes of such a cluster is
found from its parts, request by request:

    read name ───▶ (name, plain value)          values as they were
    write ───────▶ nothing, [success, …], …     values with what has been written

The cluster may be a stand-in or behind a wire; what is written to it has to have a place on the wire.
-/
namespace Commissioning

/-- A reaction that comes in time, answers a read from the values, and stores and acknowledges a
write. -/
structure Reaction.Plain (r : Reaction) (limit : Nat) : Prop where
  inTime : r.isLate limit = false
  failure : r.failure = none
  answer : r.answer = none
  accepts : r.reply.Accepts
  stores : r.stores = true

theorem Received.accepts_nothing : nothing.Accepts := ⟨.nothing, List.forall_mem_nil _⟩

theorem Reaction.plain_default (limit : Nat) : Reaction.Plain {} limit :=
  ⟨rfl, rfl, rfl, Received.accepts_nothing, rfl⟩

/-- A write is acknowledged by a record of its success in a list of its own. -/
def Reaction.acknowledging : Reaction := {
  reply := .list [.list [.record (some Reply.success) none []]] }

theorem Reaction.plain_acknowledging (limit : Nat) : acknowledging.Plain limit where
  inTime := rfl
  failure := rfl
  answer := rfl
  accepts := {
    recognized := .nested (List.forall_mem_singleton.mpr (.mk ..))
    passes := List.forall_mem_singleton.mpr rfl }
  stores := rfl

namespace ClusterState

/-- A cluster all of whose reactions are plain. -/
structure Keeps (s : ClusterState) (limit : Nat) : Prop where
  sequences : s.sequences = []
  script : ∀ r ∈ s.script, r.Plain limit

variable {s : ClusterState} {limit : Nat} {r : Reaction} {name : String} {v p : Value}

theorem Keeps.react (hs : s.Keeps limit) :
    s.react.1.Plain limit ∧ s.react.2.Keeps limit ∧ s.react.2.values = s.values := by
  unfold ClusterState.react
  split
  · exact ⟨Reaction.plain_default limit, hs, rfl⟩
  · next r script hscript =>
    obtain ⟨hr, hrest⟩ := List.forall_mem_cons.mp (hscript ▸ hs.script)
    exact ⟨hr, ⟨hs.sequences, hrest⟩, rfl⟩

/-- A read is answered with what is kept under its name. -/
theorem Keeps.reply_read (hs : s.Keeps limit) (hr : r.Plain limit)
    (hv : s.values.get? name = some v) (m : Option Int) :
    s.reply (.read [name] m) r = (.read (.tuple [.dict [(name, v)], .dict []]), s) := by
  have hnext : s.next? name = (some v, s) := by
    unfold ClusterState.next?
    rw [hs.sequences, hv]
    rfl
  have hall : s.readAll [name] [] [] = (.tuple [.dict [(name, v)], .dict []], s) := by
    rw [readAll, hnext]
    rfl
  have hfailure : s.failure? (.read [name] m) r = none := (failure?_read [name] m).trans hr.failure
  simp only [reply, hfailure, hr.answer, hall]

/-- A call that writes, and what it stores. -/
inductive Writes : ClusterCall → Entries → Prop where
  | plain (values : Entries) (m : Option Int) : Writes (.write values m) values
  | structured (records : List TypedRecord) (m : Option Int) :
    Writes (.writeStructured records m) (records.map fun r => (recordName r.attrId, r.array))

/-- A write of either form is stored and acknowledged. -/
theorem reply_write (hr : r.Plain limit) {call : ClusterCall} {stored : Entries}
    (hcall : Writes call stored) (hwire : call.unwired? = none) :
    s.reply call r = (.written r.reply, { s with values := s.values.merge stored }) := by
  have hfailure : s.failure? call r = none := (failure?_of_unwired hwire).trans hr.failure
  cases hcall with
  | plain values m =>
    simp only [reply, hfailure, hr.stores]
    rfl
  | structured records m =>
    simp only [reply, hfailure, hr.stores]
    rfl

end ClusterState

/-- The outcome of a read of one name that has been answered with its value. -/
theorem Reply.attributes_single {c : Cluster} {name : String} {v p : Value}
    (hp : Zcl.plain v = .ok p) :
    Reply.attributes c [name] (.tuple [.dict [(name, v)], .dict []]) = .ok [(name, p)] := by
  have hfound : Reply.hasName (.dict [(name, v)]) name = .ok true := by
    simp [Reply.hasName]
  have hmissing : Reply.missingNames (.dict [(name, v)]) [name] = .ok [] := by
    rw [Reply.missingNames, hfound]
    rfl
  have hplain : Reply.plainOf (.dict [(name, v)]) name = .ok p := by
    have hrequired : ClusterCall.required [(name, v)] name = .ok v := by
      rw [ClusterCall.required, Entries.get?_cons, if_pos rfl]
    rw [Reply.plainOf, hrequired]
    exact hp
  have hvalues : Reply.plainValues (.dict [(name, v)]) [name] [] = .ok [(name, p)] := by
    rw [Reply.plainValues, hplain]
    rfl
  change (ofMismatch (Reply.missingNames (.dict [(name, v)]) [name]) >>= fun missing => _) = _
  rw [hmissing]
  change ofMismatch (Reply.plainValues (.dict [(name, v)]) [name] []) = _
  rw [hvalues]
  rfl

namespace Hub
variable {h : Hub} {a : Address} {c : Cluster} {q : Request} {call : ClusterCall} {values : Entries}

/-- A cluster of a device keeps values, and goes on to do so. -/
def Holds (h : Hub) (a : Address) (c : Cluster) (values : Entries) : Prop :=
  ∃ s, h.cluster a c = .ok s ∧ s.Keeps h.limit ∧ s.values = values

/-- An exchange with a cluster that accepts every call. -/
theorem Holds.exchange (hh : h.Holds a q.cluster values) (hcall : ClusterCall.ofRequest q = .ok call)
    (hq : refusal? q = none) : ∃ (s : ClusterState) (r : Reaction), s.Keeps h.limit ∧
      s.values = values ∧ r.Plain h.limit ∧
      (h.exchange a q).1 = (s.reply call r).1.outcome q ∧
      (h.exchange a q).2.cluster a q.cluster = .ok (s.reply call r).2 ∧
      (h.exchange a q).2.limit = h.limit := by
  obtain ⟨s, hs, hkeeps, hvalues⟩ := hh
  obtain ⟨hr, hkeeps', hvalues'⟩ := hkeeps.react
  have hserve : s.serve call h.limit = s.react.2.reply call s.react.1 := by
    rw [ClusterState.serve, hr.inTime]
    rfl
  obtain ⟨houtcome, hcluster, hlimit, -⟩ := exchange_served hs hcall hq
  rw [hserve] at houtcome hcluster
  exact ⟨s.react.2, s.react.1, hkeeps', hvalues'.trans hvalues, hr, houtcome, hcluster, hlimit⟩

theorem Holds.of_ne (hh : h.Holds a c values) (hc : c ≠ q.cluster) :
    (h.exchange a q).2.Holds a c values := by
  obtain ⟨s, hs, hkeeps, hvalues⟩ := hh
  obtain ⟨hcluster, hlimit⟩ := cluster_exchange_of_ne (h := h) (a := a) hc
  exact ⟨s, hcluster.trans hs, hlimit ▸ hkeeps, hvalues⟩

/-- A hub with one device, one of whose clusters accepts every call. -/
theorem holds_single {clusters : List (Cluster × ClusterState)} {s : ClusterState}
    (hc : clusters.lookup c = some s) (hs : s.Keeps defaultLimit) :
    (single a clusters).Holds a c s.values :=
  ⟨s, cluster_single hc, hs, rfl⟩

/-- Lines in the log leave the clusters alone. -/
theorem Holds.write (hh : h.Holds a c values) (lines : Log) : (h.write lines).Holds a c values := hh

end Hub

/-! ### Procedures on a cluster that accepts every call -/

namespace Procedure
variable {α β : Type} {a : Address} {c : Cluster} {p : Procedure α} {f : α → Procedure β}
  {values mid after : Entries} {x : α}

/-- A procedure leads to a result, and from values that a cluster keeps to other ones. -/
def Leads (a : Address) (c : Cluster) (p : Procedure α) (values : Entries) (r : Outcome α)
    (after : Entries) : Prop :=
  ∀ h : Hub, h.Holds a c values → ∃ h', p.perform a h = (r, h') ∧ h'.Holds a c after

theorem leads_pure : Leads a c (pure x) values (.ok x) values :=
  fun h hh => ⟨h, rfl, hh⟩

theorem leads_bind {r : Outcome β} (hp : Leads a c p values (.ok x) mid)
    (hf : Leads a c (f x) mid r after) : Leads a c (p >>= f) values r after := by
  intro h hh
  obtain ⟨h₁, hrun, hh₁⟩ := hp h hh
  obtain ⟨h₂, hrun', hh₂⟩ := hf h₁ hh₁
  exact ⟨h₂, (perform_bind_ok hrun).trans hrun', hh₂⟩

theorem leads_bind_error {e : Fault} (hp : Leads a c p values (.error e) after) :
    Leads a c (p >>= f) values (.error e) after := by
  intro h hh
  obtain ⟨h', hrun, hh'⟩ := hp h hh
  exact ⟨h', perform_bind_error hrun, hh'⟩

theorem leads_clock_bind {f : Nat → Procedure β} {r : Outcome β}
    (hf : ∀ n, Leads a c (f n) values r after) : Leads a c (clock >>= f) values r after :=
  fun h hh => hf h.now h hh

theorem leads_log (lines : Log) : Leads a c (log lines) values (.ok ()) values :=
  fun h hh => ⟨h.write lines, rfl, hh⟩

theorem leads_note (level : Level) (message : String) (entries : Entries) :
    Leads a c (note level message entries) values (.ok ()) values :=
  leads_log _

theorem leads_ofLogged (l : Logged α) : Leads a c (ofLogged l) values l.outcome values :=
  fun h hh => ⟨h.write l.log, perform_ofLogged l h, hh.write l.log⟩

theorem leads_ofMismatch {r : Except Mismatch α} (hr : r = .ok x) :
    Leads a c (ofMismatch r) values (.ok x) values := by
  rw [hr]
  exact leads_pure

/-- A read of one name tells what is kept under it. -/
theorem leads_read {name : String} {v w : Value} (hv : values.get? name = some v)
    (hw : Zcl.plain v = .ok w) (m : Option Int) :
    Leads a c (read c [name] m) values (.ok [(name, w)]) values := by
  intro h hh
  obtain ⟨s, r, hs, hvalues, hr, houtcome, hcluster, hlimit⟩ :=
    Hub.Holds.exchange (q := .read c [name] m) hh rfl rfl
  have hreply := hs.reply_read hr (hvalues ▸ hv) m
  rw [hreply] at houtcome hcluster
  refine ⟨(h.exchange a (.read c [name] m)).2, ?_, s, hcluster, hlimit ▸ hs, hvalues⟩
  rw [read, perform_send]
  exact Prod.ext (houtcome.trans (Reply.attributes_single hw)) rfl

/-- A write of either form leaves what it stores. -/
theorem leads_write {q : Request} {call : ClusterCall} {stored : Entries}
    (hcall : ClusterCall.ofRequest q = .ok call) (hwrites : ClusterState.Writes call stored)
    (hwire : call.unwired? = none) :
    Leads a q.cluster (do let _ ← send q) values (.ok ()) (values.merge stored) := by
  have hq : Hub.refusal? q = none ∧
      ∀ w : Received, w.Accepts → Reply.outcome (.written w) q = .ok [] := by
    cases q with
    | read c names m =>
      cases hcall
      cases hwrites
    | write c values m =>
      exact ⟨rfl, fun w hw => congrArg (Except.map _) (Reply.checkWrite_of_accepts hw)⟩
    | command c name =>
      cases hcall
      cases hwrites
    | writeStructured c records m =>
      exact ⟨rfl, fun w hw => congrArg (Except.map _) (Reply.checkWrite_of_accepts hw)⟩
  intro h hh
  obtain ⟨s, r, hs, rfl, hr, houtcome, hcluster, hlimit⟩ := hh.exchange hcall hq.1
  rw [ClusterState.reply_write hr hwrites hwire] at houtcome hcluster
  have hsend : (send q).perform a h = (.ok [], (h.exchange a q).2) := by
    rw [perform_send]
    exact Prod.ext (houtcome.trans (hq.2 r.reply hr.accepts)) rfl
  exact ⟨_, perform_bind_ok hsend, _, hcluster, hlimit ▸ ⟨hs.sequences, hs.script⟩, rfl⟩

end Procedure

end Commissioning

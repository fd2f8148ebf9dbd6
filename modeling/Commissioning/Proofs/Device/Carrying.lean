import Commissioning.Proofs.Device.Footprint
import Commissioning.Proofs.Device.Keeping
import Mathlib.Data.List.Forall2

/-!
Procedures on several clusters that accept every call. What each cluster keeps is followed from
request to request, together with the calls that are made; a cluster of which nothing is said stays
as it was.

    kept c = values ── write c stored ──▶ kept c = values with stored over them
           │                    └──▶ one call for the request
           └────────── read c name ──▶ the same, and one call
-/
namespace Commissioning

namespace Hub
variable {h h' h'' : Hub} {a : Address} {c : Cluster} {q : Request} {qs qs' : List Request}
  {call : ClusterCall} {s : ClusterState} {kept mid after : Cluster → Option Entries}

/-- Each request of a list has become one call, in its place; no other calls have been made. -/
def Called (h h' : Hub) (qs : List Request) : Prop :=
  ∃ new, h'.calls = h.calls ++ new ∧ List.Forall₂ CallRecord.For new qs

theorem Called.refl (h : Hub) : h.Called h [] := ⟨[], (List.append_nil _).symm, .nil⟩

theorem Called.of_eq (hc : h.Called h' qs) (hcalls : h''.calls = h'.calls) : h.Called h'' qs := by
  obtain ⟨new, hnew, hfor⟩ := hc
  exact ⟨new, hcalls.trans hnew, hfor⟩

theorem Called.trans (h₁ : h.Called h' qs) (h₂ : h'.Called h'' qs') : h.Called h'' (qs ++ qs') := by
  obtain ⟨new₁, hcalls₁, hnew₁⟩ := h₁
  obtain ⟨new₂, hcalls₂, hnew₂⟩ := h₂
  exact ⟨new₁ ++ new₂, by rw [hcalls₂, hcalls₁, List.append_assoc], List.rel_append hnew₁ hnew₂⟩

theorem called_exchange (hs : h.cluster a q.cluster = .ok s)
    (hcall : ClusterCall.ofRequest q = .ok call) (hq : refusal? q = none) :
    h.Called (h.exchange a q).2 [q] :=
  ⟨[_], (exchange_served hs hcall hq).2.2.2, .cons ⟨rfl, rfl, hcall⟩ .nil⟩

/-- The clusters of which something is said keep these values. -/
def HoldsAll (h : Hub) (a : Address) (kept : Cluster → Option Entries) : Prop :=
  ∀ c values, kept c = some values → h.Holds a c values

theorem holdsAll_update {values : Entries} (hc : h.Holds a c values)
    (hothers : ∀ c' ≠ c, ∀ w, kept c' = some w → h.Holds a c' w) :
    h.HoldsAll a (Function.update kept c (some values)) := by
  intro c' w hw
  by_cases hother : c' = c
  · subst hother
    rw [Function.update_self] at hw
    exact Option.some.inj hw ▸ hc
  · rw [Function.update_of_ne hother] at hw
    exact hothers c' hother w hw

/-- What a procedure makes of a hub: what the clusters keep then, the calls that have been made, and
nothing else. -/
structure Turns (h h' : Hub) (a : Address) (kept : Cluster → Option Entries) (qs : List Request)
    (after : Cluster → Option Entries) : Prop where
  holds : h'.HoldsAll a after
  calls : h.Called h' qs
  others (c : Cluster) : kept c = none → after c = none ∧ h'.cluster a c = h.cluster a c
  limit : h'.limit = h.limit

theorem Turns.refl (hh : h.HoldsAll a kept) : h.Turns h a kept [] kept :=
  ⟨hh, .refl h, fun _ hc => ⟨hc, rfl⟩, rfl⟩

theorem Turns.trans (h₁ : h.Turns h' a kept qs mid) (h₂ : h'.Turns h'' a mid qs' after) :
    h.Turns h'' a kept (qs ++ qs') after where
  holds := h₂.holds
  calls := h₁.calls.trans h₂.calls
  others c hc := by
    obtain ⟨hmid, hcluster⟩ := h₁.others c hc
    obtain ⟨hafter, hcluster'⟩ := h₂.others c hmid
    exact ⟨hafter, hcluster'.trans hcluster⟩
  limit := h₂.limit.trans h₁.limit

/-- An exchange turns what its own cluster keeps, and nothing else. -/
theorem turns_exchange {values : Entries} (hh : h.HoldsAll a kept) (hc : kept q.cluster = some values)
    (hcall : ClusterCall.ofRequest q = .ok call) (hq : refusal? q = none) {values' : Entries}
    (hheld : (h.exchange a q).2.Holds a q.cluster values') : h.Turns (h.exchange a q).2 a kept [q]
      (Function.update kept q.cluster (some values')) := by
  obtain ⟨s, hs, -⟩ := hh q.cluster values hc
  refine ⟨?_, called_exchange hs hcall hq, ?_, (exchange_served hs hcall hq).2.2.1⟩
  · exact holdsAll_update hheld fun c hother w hw => (hh c w hw).of_ne hother
  · intro c hnone
    have hother : c ≠ q.cluster := by
      rintro rfl
      rw [hc] at hnone
      cases hnone
    rw [Function.update_of_ne hother]
    exact ⟨hnone, (cluster_exchange_of_ne hother).1⟩

end Hub

namespace Procedure
variable {α β : Type} {a : Address} {c : Cluster} {p : Procedure α} {f : α → Procedure β} {x : α}
  {q : Request} {kept mid after : Cluster → Option Entries} {values : Entries}
  {qs qs' : List Request}

/-- A procedure leads to a result by these requests, and from what clusters keep to something else. -/
def Carries (a : Address) (p : Procedure α) (kept : Cluster → Option Entries) (r : Outcome α)
    (qs : List Request) (after : Cluster → Option Entries) : Prop :=
  ∀ h : Hub, h.HoldsAll a kept → ∃ h', p.perform a h = (r, h') ∧ h.Turns h' a kept qs after

theorem carries_pure : Carries a (pure x) kept (.ok x) [] kept :=
  fun h hh => ⟨h, rfl, .refl hh⟩

theorem carries_bind {r : Outcome β} (hp : Carries a p kept (.ok x) qs mid)
    (hf : Carries a (f x) mid r qs' after) : Carries a (p >>= f) kept r (qs ++ qs') after := by
  intro h hh
  obtain ⟨h₁, hrun, hturns⟩ := hp h hh
  obtain ⟨h₂, hrun', hturns'⟩ := hf h₁ hturns.holds
  exact ⟨h₂, (perform_bind_ok hrun).trans hrun', hturns.trans hturns'⟩

/-- A last step that makes no call. -/
theorem carries_bind_quiet {r : Outcome β} (hp : Carries a p kept (.ok x) qs mid)
    (hf : Carries a (f x) mid r [] after) : Carries a (p >>= f) kept r qs after := by
  have h := carries_bind hp hf
  rwa [List.append_nil] at h

theorem carries_clock_bind {f : Nat → Procedure β} {r : Outcome β}
    (hf : ∀ n, Carries a (f n) kept r qs after) : Carries a (clock >>= f) kept r qs after :=
  fun h hh => hf h.now h hh

theorem carries_note (level : Level) (message : String) (entries : Entries) :
    Carries a (note level message entries) kept (.ok ()) [] kept :=
  fun h hh => ⟨h.write [Log.note level message entries], rfl,
    ⟨hh, .of_eq (.refl h) rfl, fun _ hc => ⟨hc, rfl⟩, rfl⟩⟩

theorem carries_ofMismatch {r : Except Mismatch α} (hr : r = .ok x) :
    Carries a (ofMismatch r) kept (.ok x) [] kept := by
  rw [hr]
  exact carries_pure

/-- A read of one name tells what its cluster keeps under it. -/
theorem carries_read {name : String} {v w : Value} (hc : kept c = some values)
    (hv : values.get? name = some v) (hw : Zcl.plain v = .ok w) (m : Option Int) :
    Carries a (read c [name] m) kept (.ok [(name, w)]) [.read c [name] m] kept := by
  intro h hh
  obtain ⟨h', hrun, hheld⟩ := leads_read hv hw m h (hh c values hc)
  have hlast : (h.exchange a (.read c [name] m)).2 = h' := by
    rw [← perform_send]
    exact congrArg Prod.snd hrun
  have hturns := Hub.turns_exchange (q := .read c [name] m) hh hc rfl rfl (hlast ▸ hheld)
  -- a read leaves what was kept, so the turn of its exchange is none
  have hsame : Function.update kept c (some values) = kept := by
    rw [← hc, Function.update_eq_self]
  refine ⟨h', hrun, ?_⟩
  rwa [hlast, Request.cluster, hsame] at hturns

/-- A write of either form leaves what it stores with its cluster. -/
theorem carries_write {call : ClusterCall} {stored : Entries} (hc : kept q.cluster = some values)
    (hcall : ClusterCall.ofRequest q = .ok call) (hwrites : ClusterState.Writes call stored)
    (hwire : call.unwired? = none) :
    Carries a (do let _ ← send q) kept (.ok ()) [q]
      (Function.update kept q.cluster (some (values.merge stored))) := by
  intro h hh
  obtain ⟨h', hrun, hheld⟩ := leads_write hcall hwrites hwire h (hh q.cluster values hc)
  have hlast : (h.exchange a q).2 = h' := by
    rw [perform_write] at hrun
    exact congrArg Prod.snd hrun
  have hq : Hub.refusal? q = none := by
    cases q with
    | read c names m => rfl
    | write c values m => rfl
    | command c name =>
      cases hcall
      cases hwrites
    | writeStructured c records m => rfl
  exact ⟨h', hrun, hlast ▸ Hub.turns_exchange hh hc hcall hq (hlast ▸ hheld)⟩

end Procedure

end Commissioning

import Commissioning.Proofs.Device.Faults
import Commissioning.Proofs.Exchange.Run

/-!
The calls that an activity makes. Each of them is made for a request of its procedure, so what holds
of all requests that a procedure may put holds of all calls, however the device answers and whatever
happens to the hub while the activity waits.

    Sends Q p ── start ──▶ calls for Q, Sends Q rest ── resume ──▶ calls for Q, … ──▶ ended
-/
namespace Commissioning

/-- A call that has been made for a request: at the place of its cluster, as what it becomes. -/
structure CallRecord.For (r : CallRecord) (q : Request) : Prop where
  endpoint : r.endpoint = q.cluster.endpoint
  cluster : r.cluster = q.cluster.id
  call : ClusterCall.ofRequest q = .ok r.call

namespace Hub
variable {Q : Request → Prop} {h h' h'' : Hub}

/-- What a hub has recorded has grown by calls for requests of a sort. -/
def Adds (Q : Request → Prop) (h h' : Hub) : Prop :=
  ∃ new, h'.calls = h.calls ++ new ∧ ∀ r ∈ new, ∃ q, Q q ∧ r.For q

theorem Adds.of_eq (hcalls : h'.calls = h.calls) : Adds Q h h' :=
  ⟨[], by rw [hcalls, List.append_nil], List.forall_mem_nil _⟩

theorem Adds.trans (h₁ : Adds Q h h') (h₂ : Adds Q h' h'') : Adds Q h h'' := by
  obtain ⟨new₁, hcalls₁, hnew₁⟩ := h₁
  obtain ⟨new₂, hcalls₂, hnew₂⟩ := h₂
  refine ⟨new₁ ++ new₂, by rw [hcalls₂, hcalls₁, List.append_assoc], ?_⟩
  exact List.forall_mem_append.mpr ⟨hnew₁, hnew₂⟩

/-- Starting a request makes one call for it, if it makes any. -/
theorem adds_begin {a : Address} {q : Request} (hq : Q q) : Adds Q h (h.begin a q).2 := by
  have hbegins := h.begins a q
  generalize h.begin a q = r at hbegins ⊢
  cases hbegins with
  | missing => exact .of_eq rfl
  | unfit => exact .of_eq rfl
  | refused => exact .of_eq rfl
  | opened _ hcall _ => exact ⟨[_], rfl, List.forall_mem_singleton.mpr ⟨q, hq, rfl, rfl, hcall⟩⟩

theorem adds_finish {a : Address} {x : OpenCall} : Adds Q h (h.finish a x).2 :=
  .of_eq (h.calls_finish a x)

end Hub

namespace Activity
variable {α : Type} {Q : Request → Prop} {a : Address} {p : Procedure α} {b : Activity α}

/-- All requests that an activity may still put are of one sort. -/
def Sends (Q : Request → Prop) : Activity α → Prop
  | .ended _ => True
  | .pausing _ rest => Procedure.Sends Q rest
  | .calling _ _ next => ∀ answer, Procedure.Sends Q (next answer)

theorem Sends.mono {Q' : Request → Prop} (hb : b.Sends Q) (hq : ∀ q, Q q → Q' q) :
    b.Sends Q' := by
  cases b with
  | ended outcome => trivial
  | pausing wake rest => exact Procedure.Sends.mono hb hq
  | calling wake x next => exact fun answer => (hb answer).mono hq

/-- A procedure that is started makes calls for its requests, and may put no others later. -/
theorem start_sends (hp : Procedure.Sends Q p) (a : Address) (h : Hub) :
    h.Adds Q (start a h p).2 ∧ (start a h p).1.Sends Q := by
  induction p generalizing h with
  | done x => exact ⟨.of_eq rfl, trivial⟩
  | fail e => exact ⟨.of_eq rfl, trivial⟩
  | ask e next ih =>
    cases e with
    | exchange q =>
      obtain ⟨hq, hnext⟩ := hp
      have hbegin : h.Adds Q (h.begin a q).2 := Hub.adds_begin hq
      simp only [start]
      split
      · next outcome h' hb =>
        rw [hb] at hbegin
        obtain ⟨hadds, hrest⟩ := ih outcome (hnext outcome) h'
        exact ⟨hbegin.trans hadds, hrest⟩
      · next x h' hb =>
        rw [hb] at hbegin
        split
        · obtain ⟨hadds, hrest⟩ := ih (h'.finish a x).1 (hnext _) (h'.finish a x).2
          exact ⟨hbegin.trans (Hub.adds_finish.trans hadds), hrest⟩
        · exact ⟨hbegin, hnext⟩
    | pause ms => exact ⟨.of_eq rfl, hp⟩
    | clock => exact ih h.now (hp h.now) h
    | log lines =>
      obtain ⟨hadds, hrest⟩ := ih () hp (h.write lines)
      have hwrite : h.Adds Q (h.write lines) := .of_eq rfl
      exact ⟨hwrite.trans hadds, hrest⟩

theorem resume_sends (hb : b.Sends Q) (a : Address) (h : Hub) :
    h.Adds Q (b.resume a h).2 ∧ (b.resume a h).1.Sends Q := by
  cases b with
  | ended outcome => exact ⟨.of_eq rfl, trivial⟩
  | pausing wake rest => exact start_sends hb a h
  | calling wake x next =>
    obtain ⟨hadds, hrest⟩ := start_sends (hb (h.finish a x).1) a (h.finish a x).2
    exact ⟨Hub.adds_finish.trans hadds, hrest⟩

end Activity

end Commissioning

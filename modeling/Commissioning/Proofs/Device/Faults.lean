import Commissioning.Proofs.Device.Opening
import Commissioning.Proofs.Exchange.Faults
import Commissioning.Proofs.Value.Showable

/-!
No device turns a request down: what the hub answers is a result, a failed exchange or a value that
does not fit. An activity takes over from its procedure that it never turns its request down; one
that checks first either ends without a call, or never turns its request down any more.

    ChecksFirst ── start ──┬──▶ ended, no call made
                           └──▶ Accepts ── resume ──▶ Accepts ── … ──▶ ended, accepted
-/
namespace Commissioning

theorem accepted_mapError_link {α : Type} (r : Except LinkError α) :
    Accepted (r.mapError Fault.link) := by
  cases r with
  | ok a => exact accepted_ok a
  | error e => exact accepted_error.mpr (not_isRejection_link e)

theorem Accepted.map {α β : Type} {r : Outcome α} (hr : Accepted r) (f : α → β) :
    Accepted (r.map f) := by
  cases r with
  | ok a => exact accepted_ok (f a)
  | error e => exact accepted_error.mpr (accepted_error.mp hr)

namespace Reply

theorem accepted_attributes (c : Cluster) (names : List String) (answer : Value) :
    Accepted (attributes c names answer) := by
  unfold attributes
  generalize parts answer = told
  obtain ⟨found, failures⟩ := told
  refine accepted_bind (accepted_ofMismatch _) fun missing => ?_
  dsimp only
  split
  · refine accepted_bind (accepted_ofMismatch _) fun pairs => accepted_error.mpr ?_
    exact Fault.raised_induction (P := (¬ ·.IsRejection)) (not_isRejection_link _)
      not_isRejection_mismatch
  · exact accepted_ofMismatch _

theorem accepted_checkWrite (form : WriteForm) (c : Cluster) (result : Received) :
    Accepted (checkWrite form c result) := by
  have hrecords : Accepted (do
      let head ← ofMismatch result.first
      let records ← ofMismatch (if head.isList then head.items else result.items)
      (checkRecords form c records).mapError .link) :=
    accepted_bind (accepted_ofMismatch _) fun _ =>
      accepted_bind (accepted_ofMismatch _) fun _ => accepted_mapError_link _
  unfold checkWrite
  split
  · split
    · split
      · exact accepted_error.mpr (not_isRejection_link _)
      · exact hrecords
    · exact hrecords
  · exact accepted_ok ()

theorem accepted_outcome (reply : Reply) (q : Request) : Accepted (reply.outcome q) := by
  unfold outcome
  split
  · exact accepted_error.mpr (not_isRejection_link _)
  · exact accepted_attributes _ _ _
  · exact (accepted_checkWrite _ _ _).map _
  · exact (accepted_checkWrite _ _ _).map _
  · exact accepted_ok _

end Reply

namespace Hub
variable {h h' : Hub} {a : Address} {q : Request} {x : OpenCall} {outcome : Outcome Entries}

theorem accepted_begin (hb : h.begin a q = (.closed outcome, h')) : Accepted outcome := by
  have hbegins := h.begins a q
  rw [hb] at hbegins
  cases hbegins with
  | missing => exact accepted_error.mpr (not_isRejection_link _)
  | unfit => exact accepted_error.mpr (not_isRejection_mismatch _)
  | refused => exact accepted_error.mpr (not_isRejection_link _)

theorem accepted_finish (h : Hub) (a : Address) (x : OpenCall) : Accepted (h.finish a x).1 :=
  Reply.accepted_outcome _ _

/-! ### Calls that have been made stay recorded -/

theorem calls_begin (h : Hub) (a : Address) (q : Request) : h.calls <+: (h.begin a q).2.calls := by
  have hbegins := h.begins a q
  generalize h.begin a q = r at hbegins ⊢
  cases hbegins with
  | missing => exact List.prefix_rfl
  | unfit => exact List.prefix_rfl
  | refused => exact List.prefix_rfl
  | opened => exact List.prefix_append _ _

theorem calls_finish (h : Hub) (a : Address) (x : OpenCall) :
    (h.finish a x).2.calls = h.calls := by
  have hreply : (h.reply a x).2.calls = h.calls := by
    unfold reply
    split
    · rfl
    · split
      · rfl
      · rfl
  exact hreply

end Hub

namespace Activity
variable {α : Type} {a : Address} {p : Procedure α} {b : Activity α}

/-- An activity will not turn its request down any more. -/
def Accepts : Activity α → Prop
  | .ended outcome => Accepted outcome
  | .pausing _ rest => rest.Accepts
  | .calling _ _ next => ∀ answer, Accepted answer → (next answer).Accepts

theorem start_accepts (hp : p.Accepts) (a : Address) (h : Hub) : (start a h p).1.Accepts := by
  induction p generalizing h with
  | done x => exact accepted_ok x
  | fail e => exact accepted_error.mpr hp
  | ask e next ih =>
    cases e with
    | exchange q =>
      simp only [start]
      split
      · next outcome h' hb => exact ih _ (hp _ (Hub.accepted_begin hb)) h'
      · next x h' _ =>
        split
        · exact ih _ (hp _ (h'.accepted_finish a x)) _
        · exact hp
    | pause ms => exact hp
    | clock => exact ih h.now (hp h.now) h
    | log lines => exact ih () hp _

theorem resume_accepts (hb : b.Accepts) (a : Address) (h : Hub) : (b.resume a h).1.Accepts := by
  cases b with
  | ended outcome => exact hb
  | pausing wake rest => exact start_accepts hb a h
  | calling wake x next => exact start_accepts (hb _ (h.accepted_finish a x)) a _

/-- A procedure that checks first ends without a call, or has passed all its checks. -/
theorem start_checksFirst (hp : p.ChecksFirst) (a : Address) (h : Hub) :
    (start a h p).1.Accepts ∨
      ∃ outcome, (start a h p).1 = .ended outcome ∧ (start a h p).2.calls = h.calls := by
  induction p generalizing h with
  | done x => exact .inr ⟨.ok x, rfl, rfl⟩
  | fail e => exact .inr ⟨.error e, rfl, rfl⟩
  | ask e next ih =>
    cases e with
    | exchange q =>
      have haccepts : Procedure.Accepts (.ask (.exchange q) next) := hp
      exact .inl (start_accepts haccepts a h)
    | pause ms => exact .inl hp
    | clock => exact ih h.now (hp h.now) h
    | log lines => exact ih () hp (h.write lines)

theorem calls_start (p : Procedure α) (a : Address) (h : Hub) :
    h.calls <+: (start a h p).2.calls := by
  induction p generalizing h with
  | done x => exact List.prefix_rfl
  | fail e => exact List.prefix_rfl
  | ask e next ih =>
    cases e with
    | exchange q =>
      have hcalls := h.calls_begin a q
      simp only [start]
      split
      · next outcome h' hb =>
        rw [hb] at hcalls
        exact hcalls.trans (ih _ h')
      · next x h' hb =>
        rw [hb] at hcalls
        split
        · exact hcalls.trans (h'.calls_finish a x ▸ ih _ _)
        · exact hcalls
    | pause ms => exact List.prefix_rfl
    | clock => exact ih h.now h
    | log lines => exact ih () (h.write lines)

theorem calls_resume (b : Activity α) (a : Address) (h : Hub) :
    h.calls <+: (b.resume a h).2.calls := by
  cases b with
  | ended outcome => exact List.prefix_rfl
  | pausing wake rest => exact calls_start rest a h
  | calling wake x next =>
    rw [← h.calls_finish a x]
    exact calls_start _ a _

end Activity

end Commissioning

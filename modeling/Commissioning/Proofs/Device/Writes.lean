import Commissioning.Proofs.Device.Exchange
import Commissioning.Proofs.Device.Received

/-!
Writes from their start to their end. A write that is answered in time comes out as its reply says; one
whose call fails or comes too late has no reply, and is no accepted write either. A cluster that refuses
a write keeps what it has, and so do the others.

    write ──┬─ late, or failed ──────────────▶ failed exchange
            └─ reply ──┬─ successes only ────▶ accepted
                       └─ a refusal first ───▶ failed exchange that names it
-/
namespace Commissioning

/-- The form of a request that writes. -/
def Request.writeForm? : Request → Option WriteForm
  | .write .. => some .plain
  | .writeStructured .. => some .structured
  | _ => none

theorem Reply.outcome_written {q : Request} {form : WriteForm} {w : Received}
    (hq : q.writeForm? = some form) :
    (written w).outcome q = (checkWrite form q.cluster w).map fun _ => [] := by
  cases q with
  | read c names m => cases hq
  | write c values m =>
    cases hq
    rfl
  | command c name => cases hq
  | writeStructured c records m =>
    cases hq
    rfl

namespace ClusterState
variable {s : ClusterState} {q : Request} {form : WriteForm} {call : ClusterCall} {r : Reaction}

/-- A write that does not fail gets the reply that its reaction holds. -/
theorem reply_of_write (hq : q.writeForm? = some form) (hcall : ClusterCall.ofRequest q = .ok call)
    (hr : s.failure? call r = none) :
    s.reply call r = (.written r.reply, if r.stores then s.store call else s) := by
  cases q with
  | read c names m => cases hq
  | write c values m =>
    obtain ⟨typed, -, hcall⟩ := bind_eq_ok.mp hcall
    cases hcall
    simp only [reply, hr]
  | command c name => cases hq
  | writeStructured c records m =>
    obtain ⟨typed, -, hcall⟩ := bind_eq_ok.mp hcall
    cases hcall
    simp only [reply, hr]

end ClusterState

/-! ### A write from its start to its end -/

namespace Hub
variable {h : Hub} {a : Address} {q : Request} {form : WriteForm} {call : ClusterCall}
  {s : ClusterState}

theorem refusal?_of_write (hq : q.writeForm? = some form) : refusal? q = none := by
  cases q with
  | read c names m => rfl
  | write c values m => rfl
  | command c name => cases hq
  | writeStructured c records m => rfl

/-- A write that is answered in time comes out as its reply says. -/
theorem exchange_write_answered (hq : q.writeForm? = some form)
    (hs : h.cluster a q.cluster = .ok s) (hcall : ClusterCall.ofRequest q = .ok call)
    (hlate : s.react.1.isLate h.limit = false) (hfailure : s.failure? call s.react.1 = none) :
    (h.exchange a q).1 = (Reply.checkWrite form q.cluster s.react.1.reply).map fun _ => [] := by
  have hserve : (s.serve call h.limit).1 = .written s.react.1.reply := by
    rw [← ClusterState.failure?_react] at hfailure
    rw [ClusterState.serve, hlate, if_neg Bool.false_ne_true,
      ClusterState.reply_of_write hq hcall hfailure]
  rw [(exchange_served hs hcall (refusal?_of_write hq)).1, hserve, Reply.outcome_written hq]

end Hub

/-- A cluster refuses a write: it lets it fail, or it tells of a status that is no success in one of
the forms of a reply and stores nothing. -/
inductive Reaction.Refuses (r : Reaction) (limit : Nat) : Prop where
  | unanswered (h : r.isLate limit ∨ r.failure.isSome)
  | rejected {status : Int} (hw : r.reply.Recognized) (hmem : status ∈ r.reply.statuses)
    (hrefused : status ≠ Reply.success) (hstores : r.stores = false)

theorem ClusterState.values_react (s : ClusterState) : s.react.2.values = s.values := by
  unfold ClusterState.react
  split <;> rfl

/-- The clusters of a device keep the values that they had. -/
def Hub.SameValues (h h' : Hub) (a : Address) : Prop :=
  ∀ c s, h.cluster a c = .ok s → ∃ s', h'.cluster a c = .ok s' ∧ s'.values = s.values

/-- A write that is refused comes out as a failed exchange, and nothing is stored anywhere. -/
theorem Hub.exchange_refused {h : Hub} {a : Address} {q : Request} {form : WriteForm}
    {call : ClusterCall} {s : ClusterState} (hq : q.writeForm? = some form)
    (hs : h.cluster a q.cluster = .ok s) (hcall : ClusterCall.ofRequest q = .ok call)
    (hr : s.react.1.Refuses h.limit) : (∃ e, (h.exchange a q).1 = .error (.link e)) ∧
      h.SameValues (h.exchange a q).2 a := by
  have hserved := exchange_served hs hcall (refusal?_of_write hq)
  have hserve : (s.serve call h.limit).2 = s.react.2 ∧
      ∃ e, (s.serve call h.limit).1.outcome q = .error (.link e) := by
    rw [ClusterState.serve]
    by_cases hlate : s.react.1.isLate h.limit
    · rw [if_pos hlate]
      exact ⟨rfl, _, Reply.outcome_failed q ""⟩
    · rw [if_neg hlate]
      cases hfailure : s.react.2.failure? call s.react.1 with
      | some cause =>
        rw [ClusterState.reply_of_failure hfailure]
        exact ⟨rfl, _, Reply.outcome_failed q cause⟩
      | none =>
        cases hr with
        | unanswered hlost =>
          rcases hlost with hlost | hlost
          · exact absurd hlost hlate
          · rw [(ClusterState.failure?_eq_none.mp hfailure).2] at hlost
            cases hlost
        | @rejected status hw hmem hrefused hstores =>
          rw [ClusterState.reply_of_write hq hcall hfailure, hstores]
          have hjudged := Reply.judged_checkWrite form q.cluster hw
          dsimp only
          rw [Reply.outcome_written hq]
          generalize Reply.checkWrite form q.cluster s.react.1.reply = judgement at hjudged ⊢
          cases hjudged with
          | accepted hall => exact absurd (hall status hmem) hrefused
          | @refused _ e => exact ⟨rfl, e, rfl⟩
  obtain ⟨hstate, e, herror⟩ := hserve
  refine ⟨⟨e, hserved.1.trans herror⟩, fun c s' hs' => ?_⟩
  by_cases hc : c = q.cluster
  · subst hc
    obtain rfl := Except.ok.inj (hs.symm.trans hs')
    exact ⟨s.react.2, hserved.2.1.trans (congrArg _ hstate), s.values_react⟩
  · exact ⟨s', (cluster_exchange_of_ne hc).1.trans hs', rfl⟩

/-- A write of either form whose reply has one of the forms of a reply is accepted exactly if no
status in it is other than success. Else it fails, and the failure names the first refusal; it always
fails if its call fails or takes ten seconds. -/
theorem write_accepted_iff {h : Hub} {a : Address} {q : Request} {form : WriteForm}
    {call : ClusterCall} {s : ClusterState} (hlimit : h.limit = Hub.defaultLimit)
    (hq : q.writeForm? = some form) (hs : h.cluster a q.cluster = .ok s)
    (hcall : ClusterCall.ofRequest q = .ok call) :
    let outcome := ((do let _ ← Procedure.send q : Procedure Unit).perform a h).1
    let reaction := s.react.1
    let w := reaction.reply
    (w.Recognized → reaction.delay < 10000 → s.failure? call reaction = none →
      (outcome = .ok () ↔ ∀ status ∈ w.statuses, status = Reply.success) ∧
      ((∃ status ∈ w.statuses, status ≠ Reply.success) → ∃ e what, outcome = .error e ∧
        e.category = .transport ∧ w.FirstRefusal what ∧
        e.message = form.describe q.cluster ++ what)) ∧
    (10000 ≤ reaction.delay ∨ s.failure? call reaction ≠ none →
      ∃ e, outcome = .error e ∧ e.category = .transport) := by
  intro outcome reaction w
  have houtcome : outcome = (h.exchange a q).1.map fun _ => () :=
    congrArg Prod.fst (Procedure.perform_write a h q)
  refine ⟨fun hw hdelay hfailure => ?_, fun hlost => ?_⟩
  · have hlate := Reaction.isLate_eq_false hlimit hdelay
    rw [houtcome, Hub.exchange_write_answered hq hs hcall hlate hfailure]
    have hjudged := Reply.judged_checkWrite form q.cluster hw
    generalize Reply.checkWrite form q.cluster w = judgement at hjudged ⊢
    cases hjudged with
    | accepted hall =>
      refine ⟨⟨fun _ => hall, fun _ => rfl⟩, ?_⟩
      rintro ⟨status, hmem, hrefused⟩
      exact absurd (hall status hmem) hrefused
    | @refused status e what hmem hrefused hfirst hmessage =>
      exact ⟨⟨nofun, fun hall => absurd (hall status hmem) hrefused⟩,
        fun _ => ⟨.link e, what, rfl, rfl, hfirst, hmessage⟩⟩
  · have hlost' : reaction.isLate h.limit ∨ (s.failure? call reaction).isSome :=
      hlost.imp (Reaction.isLate_eq_true hlimit) Option.isSome_iff_ne_none.mpr
    obtain ⟨cause, hcause⟩ :=
      Hub.exchange_unanswered hs hcall (Hub.refusal?_of_write hq) hlost'
    exact ⟨.link (Reply.linkError q cause), by rw [houtcome, hcause]; rfl, rfl⟩

/-- A record of a reply to a write. -/
def statusRecord (status attrId : Option Int) : Received := .record status attrId []

/-- Records in a list of their own, of which the first has no status, the second is accepted and two
are refused: the first of the two is named. -/
theorem write_accepted_iff_nested :
    let a : Address := ⟨List.replicate 16 '0'⟩
    let q : Request := .writeStructured .deviceSetup [⟨1, 0x48, 0x41, []⟩] none
    let reaction : Reaction := {
      delay := 9999
      reply := .list [.list [statusRecord none (some 0), statusRecord (some 0) (some 1),
        statusRecord (some 0x86) (some 2), statusRecord (some 0x88) (some 3)]]
      stores := false }
    let hub := Hub.single a [(.deviceSetup, { script := [reaction], wired := true })]
    ∃ e, ((do let _ ← Procedure.send q : Procedure Unit).perform a hub).1 = .error e ∧
      e.category = .transport ∧ e.message = "Structured write of device_setup rejected: " ++
        "attribute 2 status <Status.UNSUPPORTED_ATTRIBUTE: 134>" := by
  intro a q reaction hub
  have hs : hub.cluster a q.cluster = .ok { script := [reaction], wired := true } :=
    Hub.cluster_single rfl
  have hfind : Zcl.ElementType.all.find? (fun t => (Value.int 0x41).sameKey (.int t.id)) =
      some .octetString := by decide +kernel
  have htype : Zcl.ElementType.ofValue (.int 0x41) = .ok .octetString := by
    unfold Zcl.ElementType.ofValue
    rw [hfind]
    rfl
  have hrecord : ClusterCall.typedRecord ⟨1, 0x48, 0x41, []⟩ = .ok ⟨1, 0x48, .array 0x41 []⟩ := by
    rw [ClusterCall.typedRecord, htype]
    rfl
  have hcall : ClusterCall.ofRequest q =
      .ok (.writeStructured [⟨1, 0x48, .array 0x41 []⟩] none) := by
    rw [ClusterCall.ofRequest, List.mapM_cons, hrecord]
    rfl
  have hrecognized : reaction.reply.Recognized := by
    refine .nested ?_
    simp only [List.forall_mem_cons]
    exact ⟨.mk .., .mk .., .mk .., .mk .., List.forall_mem_nil _⟩
  obtain ⟨e, what, herror, hcategory, hfirst, hmessage⟩ :=
    ((write_accepted_iff rfl rfl hs hcall).1 hrecognized (by decide) rfl).2
      ⟨0x86, by decide, by decide⟩
  let before : List Received := [statusRecord none (some 0), statusRecord (some 0) (some 1)]
  have hbefore : ∀ b ∈ before, b.Passes := by
    intro b hb status hstatus
    simp only [before, List.mem_cons, List.not_mem_nil, or_false] at hb
    rcases hb with rfl | rfl
    · cases hstatus
    · exact (Option.some.inj hstatus).symm
  let records := before ++ statusRecord (some 0x86) (some 2) :: [statusRecord (some 0x88) (some 3)]
  have hrecords : (Received.list [.list records]).records = records := rfl
  have hthird := Received.FirstRefusal.record hrecords hbefore rfl (by decide)
  obtain rfl := Reply.firstRefusal_unique hfirst hthird
  exact ⟨e, herror, hcategory, hmessage.trans (by decide +kernel)⟩

end Commissioning

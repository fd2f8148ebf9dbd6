import Commissioning.Device.Reply
import Commissioning.Proofs.Logged

/-!
No refused write passes as accepted. What comes back from a write is looked at to find out which of
its forms it has, and each form is judged by the statuses in it: the write is accepted exactly if none
of them is other than success. Else the first refusal is the cause that is told:

    nothing   []  ───────────────────────────▶ accepted
    [r, …]   [[r, …]]   success … success | refused | …
                        └─── before ────┘      └──▶ attribute and status
    one status for all ──────────────────────────▶ status
-/
namespace Commissioning

namespace Received

mutual

/-- The records in what comes back, in their order and in whichever lists they stand. -/
def records : Received → List Received
  | nothing | number _ => []
  | list items => recordsAmong items
  | record status attrId fields => [record status attrId fields]

/-- The records in the items of a list. -/
def recordsAmong : List Received → List Received
  | [] => []
  | item :: items => item.records ++ recordsAmong items

end

/-- The statuses that are there. -/
def statuses (w : Received) : List Int := w.records.filterMap status?

/-- A record, whatever stands in it. -/
inductive IsRecord : Received → Prop where
  | mk (status attrId : Option Int) (fields : List Received) : IsRecord (record status attrId fields)

/-- The forms that the reply to a write has. -/
inductive Recognized : Received → Prop where
  | nothing : Recognized nothing
  /-- Records, or an empty list. -/
  | records {items : List Received} (h : ∀ r ∈ items, r.IsRecord) : Recognized (list items)
  /-- Records in a list of their own within the reply. -/
  | nested {items : List Received} (h : ∀ r ∈ items, r.IsRecord) : Recognized (list [list items])
  /-- One status for the whole write, told along with the command that it answers. -/
  | response (command status : Int) :
    Recognized (record (some status) none [number command, number status])

/-- A record whose status, if it has one, is success. -/
def Passes (r : Received) : Prop := ∀ status, r.status? = some status → status = Reply.success

/-- The refusal that is told first, and how it is worded. -/
inductive FirstRefusal : Received → String → Prop where
  | record {items before after : List Received} {r : Received} {status : Int}
    (hitems : (list items).records = before ++ r :: after)
    (hbefore : ∀ b ∈ before, b.Passes)
    (hr : r.status? = some status) (hrefused : status ≠ Reply.success) :
    FirstRefusal (list items) (" rejected: attribute " ++ (r.attrId?.map toString).getD "None" ++
      " status " ++ Zcl.statusText status)
  | response {status : Int} {attrId : Option Int} {fields : List Received}
    (hrefused : status ≠ Reply.success) :
    FirstRefusal (.record (some status) attrId fields) (" rejected: status " ++ Zcl.statusText status)

/-- A reply that accepts its write. -/
structure Accepts (w : Received) : Prop where
  recognized : w.Recognized
  passes : ∀ status ∈ w.statuses, status = Reply.success

variable {items : List Received} {w r : Received}

theorem passes_iff : r.Passes ↔ Reply.isRefusal r.status? = false := by
  unfold Passes Reply.isRefusal
  cases r.status? with
  | none => simp
  | some status => simp [bne]

theorem IsRecord.records_eq (h : r.IsRecord) : r.records = [r] := by
  cases h
  rw [records]

theorem recordsAmong_eq (h : ∀ r ∈ items, r.IsRecord) : recordsAmong items = items := by
  induction items with
  | nil => rw [recordsAmong]
  | cons r items ih =>
    obtain ⟨hr, hrest⟩ := List.forall_mem_cons.mp h
    rw [recordsAmong, hr.records_eq, ih hrest]
    rfl

theorem records_flat (h : ∀ r ∈ items, r.IsRecord) : (list items).records = items := by
  rw [records, recordsAmong_eq h]

theorem records_nested (h : ∀ r ∈ items, r.IsRecord) : (list [list items]).records = items := by
  rw [records, recordsAmong, recordsAmong, records, recordsAmong_eq h, List.append_nil]

end Received

namespace LinkError

theorem message_refused (form : WriteForm) (c : Cluster) (status : Int) :
    (refused form c status).message =
      form.describe c ++ (" rejected: status " ++ Zcl.statusText status) := by
  change form.describe c ++ " rejected: status " ++ Zcl.statusText status = _
  rw [String.append_assoc]

theorem message_refusedAttribute (form : WriteForm) (c : Cluster) (id : Option Int) (status : Int) :
    (refusedAttribute form c id status).message = form.describe c ++ (" rejected: attribute " ++
      (id.map toString).getD "None" ++ " status " ++ Zcl.statusText status) := by
  cases id with
  | none =>
    change form.describe c ++ " rejected: attribute " ++ "None" ++ " status " ++
      Zcl.statusText status = _
    simp only [String.append_assoc]
    rfl
  | some id =>
    change form.describe c ++ " rejected: attribute " ++ toString id ++ " status " ++
      Zcl.statusText status = _
    simp only [String.append_assoc]
    rfl

end LinkError

namespace Reply
open Received
variable {form : WriteForm} {c : Cluster} {w : Received} {items : List Received}

/-! ### Records -/

/-- Records that pass have no say in what the others lead to. -/
theorem checkRecords_append {before : List Received} (hbefore : ∀ b ∈ before, b.Passes)
    (rs : List Received) : checkRecords form c (before ++ rs) = checkRecords form c rs := by
  induction before with
  | nil => rfl
  | cons b before ih =>
    obtain ⟨hb, hrest⟩ := List.forall_mem_cons.mp hbefore
    rw [List.cons_append, checkRecords]
    cases hstatus : b.status? with
    | none => exact ih hrest
    | some status => exact (if_pos (hb status hstatus)).trans (ih hrest)

theorem checkRecords_passes (h : ∀ r ∈ items, r.Passes) : checkRecords form c items = .ok () := by
  have hok : checkRecords form c (items ++ []) = checkRecords form c [] := checkRecords_append h []
  rwa [List.append_nil] at hok

theorem checkRecords_cons_refused {r : Received} {status : Int} (hr : r.status? = some status)
    (hrefused : status ≠ success) (rs : List Received) :
    checkRecords form c (r :: rs) = .error (.refusedAttribute form c r.attrId? status) := by
  rw [checkRecords, hr]
  exact if_neg hrefused

/-- Records all pass, or they split at the first refusal. -/
theorem passes_or_split (rs : List Received) : (∀ r ∈ rs, r.Passes) ∨
    ∃ before r after status, rs = before ++ r :: after ∧ (∀ b ∈ before, b.Passes) ∧
      r.status? = some status ∧ status ≠ success := by
  cases hfind : rs.find? fun r => isRefusal r.status? with
  | none =>
    refine .inl fun r hr => passes_iff.mpr ?_
    simpa using List.find?_eq_none.mp hfind r hr
  | some r =>
    obtain ⟨hrefusal, before, after, hsplit, hbefore⟩ := List.find?_eq_some_iff_append.mp hfind
    cases hstatus : r.status? with
    | none =>
      rw [hstatus] at hrefusal
      cases hrefusal
    | some status =>
      rw [hstatus] at hrefusal
      refine .inr ⟨before, r, after, status, hsplit, fun b hb => ?_, hstatus, bne_iff_ne.mp hrefusal⟩
      exact passes_iff.mpr (by simpa using hbefore b hb)

theorem find?_of_split {rs before after : List Received} {r : Received} {status : Int}
    (hsplit : rs = before ++ r :: after) (hbefore : ∀ b ∈ before, b.Passes)
    (hr : r.status? = some status) (hrefused : status ≠ success) :
    rs.find? (fun r => isRefusal r.status?) = some r := by
  refine List.find?_eq_some_iff_append.mpr ⟨?_, before, after, hsplit, fun b hb => ?_⟩
  · rw [hr]
    exact bne_iff_ne.mpr hrefused
  · simpa using passes_iff.mp (hbefore b hb)

/-- There is one first refusal at most. -/
theorem firstRefusal_unique {what what' : String} (h : w.FirstRefusal what)
    (h' : w.FirstRefusal what') : what = what' := by
  cases h with
  | @record _ before after r status hw hbefore hr hrefused =>
    cases h' with
    | @record _ _ _ r' status' hw' hbefore' hr' hrefused' =>
      have hfind := find?_of_split hw hbefore hr hrefused
      rw [find?_of_split hw' hbefore' hr' hrefused'] at hfind
      obtain rfl := Option.some.inj hfind
      obtain rfl := Option.some.inj (hr.symm.trans hr')
      rfl
  | response =>
    cases h' with
    | response => rfl

/-! ### Forms of a reply -/

/-- Records that stand in the reply itself are looked at one after the other. -/
theorem checkWrite_flat (h : ∀ r ∈ items, r.IsRecord) :
    checkWrite form c (.list items) = (checkRecords form c items).mapError .link := by
  cases items with
  | nil => rfl
  | cons r rs =>
    cases h r List.mem_cons_self
    rfl

/-- So are those in a list of their own. -/
theorem checkWrite_nested (items : List Received) :
    checkWrite form c (.list [.list items]) = (checkRecords form c items).mapError .link := rfl

/-- One status for all decides alone. -/
theorem checkWrite_response (command status : Int) :
    checkWrite form c (.record (some status) none [.number command, .number status]) =
      if status = success then .ok () else .error (.link (.refused form c status)) := by
  by_cases h : status = success
  · subst h
    rfl
  · have hrefused : status ≠ success := h
    simp only [checkWrite, isTruthy, status?, if_true, if_pos hrefused, if_neg h]
    rfl

/-- What may come of a reply: it is accepted and tells of successes only, or its first refusal is
told. -/
inductive Judged (form : WriteForm) (c : Cluster) (w : Received) : Outcome Unit → Prop where
  | accepted (hall : ∀ status ∈ w.statuses, status = success) : Judged form c w (.ok ())
  | refused {status : Int} {e : LinkError} {what : String} (hmem : status ∈ w.statuses)
    (hrefused : status ≠ success) (hfirst : w.FirstRefusal what)
    (hmessage : e.message = form.describe c ++ what) : Judged form c w (.error (.link e))

/-- Records are judged by the first refusal among them. -/
theorem judged_records {outer : List Received} (hrecords : (list outer).records = items) :
    Judged form c (.list outer) ((checkRecords form c items).mapError .link) := by
  rcases passes_or_split items with
    hall | ⟨before, r, after, status, hsplit, hbefore, hr, hrefused⟩
  · rw [checkRecords_passes hall]
    refine .accepted fun status hmem => ?_
    obtain ⟨r, hr, hstatus⟩ := List.mem_filterMap.mp hmem
    exact hall r (hrecords ▸ hr) status hstatus
  · have hmem : status ∈ (list outer).statuses := by
      refine List.mem_filterMap.mpr ⟨r, ?_, hr⟩
      rw [hrecords, hsplit]
      exact List.mem_append_right _ List.mem_cons_self
    rw [hsplit, checkRecords_append hbefore, checkRecords_cons_refused hr hrefused]
    exact .refused hmem hrefused (.record (hrecords.trans hsplit) hbefore hr hrefused)
      (LinkError.message_refusedAttribute form c r.attrId? status)

/-- A reply is judged by its statuses, whichever of its forms it has. -/
theorem judged_checkWrite (form : WriteForm) (c : Cluster) (hw : w.Recognized) :
    Judged form c w (checkWrite form c w) := by
  cases hw with
  | nothing => exact .accepted (List.forall_mem_nil _)
  | records h =>
    rw [checkWrite_flat h]
    exact judged_records (records_flat h)
  | nested h =>
    rw [checkWrite_nested]
    exact judged_records (records_nested h)
  | response command status =>
    rw [checkWrite_response]
    have hstatuses : (Received.record (some status) none
        [.number command, .number status]).statuses = [status] := rfl
    split
    · next hsuccess => exact .accepted (hstatuses ▸ List.forall_mem_singleton.mpr hsuccess)
    · next hrefused =>
      exact .refused (hstatuses ▸ List.mem_singleton_self _) hrefused (.response hrefused)
        (LinkError.message_refused form c status)

theorem checkWrite_of_accepts (hw : w.Accepts) : checkWrite form c w = .ok () := by
  have hjudged := judged_checkWrite form c hw.recognized
  generalize checkWrite form c w = judgement at hjudged ⊢
  cases hjudged with
  | accepted => rfl
  | refused hmem hrefused => exact absurd (hw.passes _ hmem) hrefused

end Reply

end Commissioning

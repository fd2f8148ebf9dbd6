import Commissioning.Proofs.Device.Wired
import Commissioning.Proofs.DeviceSetup.Checks
import Commissioning.Proofs.InputAction.Soundness
import Commissioning.Proofs.Zcl.Flattening

/-!
The two arrays of the setup cluster. Both forms of a write build the same array and store it under
the same name, so what is stored does not tell them apart; and read back, the array gives the plain
elements again:

    elements ──┬─ plain ──────▶ name, element type, elements ──┐
               └─ structured ─▶ number, element type, elements ┴─▶ name ↦ array ── plain ──▶ elements

Behind a wire, an array that has no place there fails in both forms, and stores nothing.
-/
namespace Commissioning.DeviceSetup

/-! ### Plain elements and arrays -/

/-- The numbers of a payload are those of some octets. -/
def Numbers (vs : List Value) (bs : List UInt8) : Prop :=
  List.Forall₂ (fun v b => v.asInt? = some (b.toNat : Int)) vs bs

theorem exists_numbers {vs : List Value} (h : ∀ v ∈ vs, isOctet v) : ∃ bs, Numbers vs bs := by
  refine exists_forall₂ fun v hv => ?_
  have hoctet := h v hv
  unfold isOctet at hoctet
  split at hoctet
  · next n hn =>
    rw [Bool.and_eq_true, decide_eq_true_iff, decide_eq_true_iff] at hoctet
    refine ⟨UInt8.ofNat n.toNat, ?_⟩
    have htoNat : ((UInt8.ofNat n.toNat).toNat : Int) = n := by
      rw [UInt8.toNat_ofNat']
      omega
    rw [hn, htoNat]
  · cases hoctet

theorem asIndex?_of_asInt? {v : Value} {n : Int} (h : v.asInt? = some n) : v.asIndex? = some n := by
  cases v <;> first | exact h | cases h

theorem Numbers.integers {vs : List Value} {bs : List UInt8} (h : Numbers vs bs) :
    Zcl.Integers vs (bs.map fun b => (b.toNat : Int)) :=
  List.forall₂_map_right_iff.mpr (h.imp fun _ _ => asIndex?_of_asInt?)

theorem Numbers.toOctets {vs : List Value} {bs : List UInt8} (h : Numbers vs bs) :
    (Value.list vs).toOctets = .ok bs :=
  mapM_eq_ok.mpr (h.imp fun _ _ hv => toOctet_eq_ok.mpr (asIndex?_of_asInt? hv))

/-- The array of configurations as a device keeps it. -/
def flagArray (vs : List Value) : Value :=
  .array Zcl.ElementType.data8.id (vs.map fun v => .list [v])

/-- The array of rows as a device keeps it. -/
def rowArray (rows : List (List UInt8)) : Value :=
  .array Zcl.ElementType.octetString.id (rows.map .bytes)

theorem plain_flags {vs : List Value} {bs : List UInt8} (h : Numbers vs bs) :
    Zcl.plain (flagArray vs) = .ok (.ofOctets bs) := by
  rw [flagArray, Zcl.plain_data h.integers, List.map_map]
  rfl

theorem plain_rows (rows : List (List UInt8)) :
    Zcl.plain (rowArray rows) = .ok (.list (rows.map .ofOctets)) := Zcl.plain_octets rows

theorem map_element {vs : List Value} {bs : List UInt8} (h : Numbers vs bs) :
    vs.map ArrayWrite.element = vs := by
  induction h with
  | nil => rfl
  | @cons v b vs bs hv _ ih =>
    have helement : ArrayWrite.element v = v := by
      cases v <;> first | rfl | cases hv
    rw [List.map_cons, helement, ih]

/-- Flags that are given make their array. -/
theorem buildArray_flags {vs : List Value} {bs : List UInt8} (h : Numbers vs bs) :
    Zcl.buildArray ArrayAttribute.configurations.elementType (.list (vs.map ArrayWrite.element)) =
      .ok (flagArray vs) := by
  rw [map_element h]
  exact Zcl.buildArray_data h.integers

/-- So do rows. -/
theorem buildArray_rows {vs : List Value} {rows : List (List UInt8)}
    (h : List.Forall₂ (fun v bs => (ArrayWrite.element v).toOctets = .ok bs) vs rows) :
    Zcl.buildArray ArrayAttribute.actions.elementType (.list (vs.map ArrayWrite.element)) =
      .ok (rowArray rows) :=
  Zcl.buildArray_octets (List.forall₂_map_left_iff.mpr h)

/-! ### Rows -/

/-- The octets of a raw row. -/
def RowHas (v : Value) (bs : List UInt8) : Prop := ∃ row, v.items = .ok row ∧ Numbers row bs

/-- A raw row becomes a list of its octets. -/
theorem exists_row {v : Value} (h : IsRow v) :
    ∃ bs, RowHas v bs ∧ (ArrayWrite.element v).toOctets = .ok bs := by
  obtain ⟨row, hrow, hlength, hoctets⟩ := h
  obtain ⟨bs, hbs⟩ := exists_numbers hoctets
  refine ⟨bs, ⟨row, hrow, hbs⟩, ?_⟩
  -- a text and named values have texts as their items, and texts are no octets
  have htexts (texts : List String) : row ≠ texts.map Value.str := by
    rintro rfl
    cases texts with
    | nil => simp [DecodedAction.headerLength] at hlength
    | cons text texts => cases hoctets (.str text) List.mem_cons_self
  cases v with
  | list items =>
    cases hrow
    exact hbs.toOctets
  | tuple items =>
    cases hrow
    exact hbs.toOctets
  | bytes octets =>
    cases hrow
    exact hbs.toOctets
  | str s =>
    refine absurd (Except.ok.inj hrow).symm ?_
    have hchars := htexts (s.toList.map fun c => c.toString)
    rw [List.map_map] at hchars
    exact hchars
  | dict entries =>
    refine absurd (Except.ok.inj hrow).symm ?_
    have hkeys := htexts (entries.map Prod.fst)
    rw [List.map_map] at hkeys
    exact hkeys
  | _ => cases hrow

/-- Compiled rows are written as octets. -/
theorem exists_octets_of_compile {templates model : Value} {bindings : List InputAction}
    (h : (compileInputActions templates model).outcome = .ok bindings) :
    ∃ rows, List.Forall₂ (fun b bs => b.octets = .ok bs) bindings rows :=
  exists_forall₂ fun b hb => InputAction.exists_octets_of_fits (compiled_rows h b hb).2

/-- Compiled rows are written as their octets. -/
theorem elements_toValue {bindings : List InputAction} {rows : List (List UInt8)}
    (h : List.Forall₂ (fun b bs => b.octets = .ok bs) bindings rows) :
    List.Forall₂ (fun v bs => (ArrayWrite.element v).toOctets = .ok bs)
      (bindings.map InputAction.toValue) rows := by
  rw [List.forall₂_map_left_iff]
  exact h.imp fun b _ hb => b.toOctets_toValue.trans hb

/-- Payloads that are lists, if they are given, and that are good: what raw payloads have to be is
checked, and templates compile. -/
structure Payloads.Good (payloads : Payloads) (model compiled : Value) : Prop where
  configurations : payloads.configurations = .null ∨ ∃ vs, payloads.configurations = .list vs
  actions : payloads.actions = .null ∨ ∃ vs, payloads.actions = .list vs
  checked : checkRaw payloads.configurations payloads.actions = .ok ()
  compiles : (compilePayload model payloads.templates).outcome = .ok compiled

namespace Payloads.Good
variable {payloads : Payloads} {model compiled : Value} {vs : List Value}

/-- Configurations that are given have been checked. -/
theorem octets (h : payloads.Good model compiled) (hvs : payloads.configurations = .list vs) :
    ∀ v ∈ vs, isOctet v := by
  obtain ⟨items, -, hitems, -, hoctets, -⟩ := checkRaw_eq_ok.mp h.checked
  rw [hvs, payloadItems_list] at hitems
  cases hitems
  exact hoctets

/-- So have rows. -/
theorem rows (h : payloads.Good model compiled) (hvs : payloads.actions = .list vs) :
    ∀ v ∈ vs, IsRow v := by
  obtain ⟨-, items, -, hitems, -, hrows⟩ := checkRaw_eq_ok.mp h.checked
  rw [hvs, payloadItems_list] at hitems
  cases hitems
  exact hrows

end Payloads.Good

/-! ### Both forms of a write -/

namespace ArrayAttribute

theorem recordName_id (t : ArrayAttribute) : ClusterState.recordName t.id = t.name := by
  cases t <;> rfl

theorem ofValue_elementType (t : ArrayAttribute) :
    Zcl.ElementType.ofValue (.int t.elementType.id) = .ok t.elementType :=
  t.elementType.ofValue_id

theorem checkWord_id (t : ArrayAttribute) : Zcl.checkWord false 16 t.id = .ok (t.id : Int) := by
  cases t <;> rfl

end ArrayAttribute

variable {a : Address} {values : Entries} {w : ArrayWrite} {array : Value}

/-- The plain form becomes a call that stores the array under the name of its attribute. -/
theorem ofRequest_plain (h : Zcl.buildArray w.target.elementType (.list w.elements) = .ok array) :
    ClusterCall.ofRequest (.write .deviceSetup w.asValues none) =
      .ok (.write [(w.target.name, array)] none) := by
  have htyped : ClusterCall.typedValues w.asValues = .ok [(w.target.name, array)] := by
    let entries : Entries := [("element_type", .int w.target.elementType.id),
      ("elements", .list w.elements)]
    have htype : entries.get? ClusterCall.elementTypeKey = some (.int w.target.elementType.id) := rfl
    have helements : ClusterCall.required entries ClusterCall.elementsKey =
      .ok (.list w.elements) := rfl
    have hvalue : ClusterCall.typedValue (.dict entries) = .ok array := by
      simp only [ClusterCall.typedValue, htype, helements, w.target.ofValue_elementType]
      exact h
    rw [ArrayWrite.asValues, ClusterCall.typedValues, hvalue]
    rfl
  rw [ClusterCall.ofRequest, htyped]
  rfl

/-- The structured form becomes a call with the array as its only record. -/
theorem ofRequest_structured
    (h : Zcl.buildArray w.target.elementType (.list w.elements) = .ok array) :
    ClusterCall.ofRequest (.writeStructured .deviceSetup [w.asRecord] none) =
      .ok (.writeStructured [⟨w.target.id, Zcl.arrayTypeId, array⟩] none) := by
  have hrecord : ClusterCall.typedRecord w.asRecord =
      .ok ⟨w.target.id, Zcl.arrayTypeId, array⟩ := by
    rw [ClusterCall.typedRecord, ArrayWrite.asRecord]
    dsimp only
    rw [w.target.ofValue_elementType, w.target.checkWord_id]
    change (Zcl.buildArray w.target.elementType (.list w.elements) >>= fun made => _) = _
    rw [h]
    rfl
  have hrecords : [w.asRecord].mapM ClusterCall.typedRecord =
      .ok [⟨w.target.id, Zcl.arrayTypeId, array⟩] := by
    exact mapM_eq_ok.mpr (.cons hrecord .nil)
  rw [ClusterCall.ofRequest, hrecords]
  rfl

/-- An array that goes on the wire is no reason for a call to stay off it. -/
theorem wireFault?_eq_none (h : ∃ octets, Zcl.wire array = .ok octets) :
    Zcl.wireFault? array = none := by
  obtain ⟨octets, hwire⟩ := h
  unfold Zcl.wireFault?
  split
  · rw [hwire]
  · rfl

theorem exists_wireFault {type : Nat} {elements : List Value}
    (h : ¬ ∃ octets, Zcl.wire (.array type elements) = .ok octets) :
    ∃ fault, Zcl.wireFault? (.array type elements) = some fault := by
  rw [Zcl.wireFault?]
  cases hwire : Zcl.wire (.array type elements) with
  | ok octets => exact absurd ⟨octets, hwire⟩ h
  | error fault => exact ⟨fault, rfl⟩

/-- Whichever form is sent, an array that goes on the wire is kept under the name of its attribute. -/
theorem leads_sendWrite (h : Zcl.buildArray w.target.elementType (.list w.elements) = .ok array)
    (hwire : ∃ octets, Zcl.wire array = .ok octets) :
    Procedure.Leads a .deviceSetup w.send values (.ok ()) (values.put w.target.name array) := by
  have hfault := wireFault?_eq_none hwire
  have hplain : (ClusterCall.write [(w.target.name, array)] none).unwired? = none := by
    simp [ClusterCall.unwired?, ClusterCall.arrays, hfault]
  have hstructured : (ClusterCall.writeStructured
      [⟨w.target.id, Zcl.arrayTypeId, array⟩] none).unwired? = none := by
    simp [ClusterCall.unwired?, ClusterCall.arrays, hfault]
  refine Procedure.leads_bind (Procedure.leads_log _) ?_
  split
  · have hwrite : Procedure.Leads a .deviceSetup _ values _ _ :=
      Procedure.leads_write (ofRequest_structured h) (.structured _ _) hstructured
    rw [List.map_cons, List.map_nil, w.target.recordName_id] at hwrite
    exact hwrite
  · exact Procedure.leads_write (ofRequest_plain h) (.plain _ _) hplain

/-- Whichever form is sent, an array that does not go on the wire fails there, and nothing is stored. -/
theorem fails_sendWrite (h : Zcl.buildArray w.target.elementType (.list w.elements) = .ok array)
    {fault : Mismatch} (hfault : Zcl.wireFault? array = some fault) :
    Procedure.Fails a .deviceSetup w.send values values := by
  have hplain : (ClusterCall.write [(w.target.name, array)] none).unwired? = some fault := by
    simp [ClusterCall.unwired?, ClusterCall.arrays, hfault]
  have hstructured : (ClusterCall.writeStructured
      [⟨w.target.id, Zcl.arrayTypeId, array⟩] none).unwired? = some fault := by
    simp [ClusterCall.unwired?, ClusterCall.arrays, hfault]
  refine Procedure.fails_bind (Procedure.leads_log _) ?_
  split
  · exact Procedure.fails_send (q := .writeStructured .deviceSetup [w.asRecord] none)
      (ofRequest_structured h) rfl hstructured
  · exact Procedure.fails_send (q := .write .deviceSetup w.asValues none) (ofRequest_plain h) rfl
      hplain

end Commissioning.DeviceSetup

import Commissioning.Proofs.DeviceSetup.Arrays
import Commissioning.Proofs.DeviceSetup.Requests

/-!
The arrays of the setup cluster on the wire. An array is built when a request becomes a call, and put
on the wire after that, where the limits of the wire are: one word counts the elements, and one octet
counts those of a row.

    element type | count, low, high | count of a row, octets | count of a row, octets | …
                       ≤ 65535            ≤ 254

Payloads are checked before anything is sent, but not against the second limit. Flags and rows that
are compiled from templates keep to it by themselves. A raw row may be longer: it is accepted, and it
is found out only when the array of flags has been written.
-/
namespace Commissioning

/-! ### Arrays and their elements -/

namespace Zcl

/-- The most elements that an array can have on the wire. -/
def countLimit : Nat := 65535

/-- The most octets that a row can have on the wire. -/
def rowLimit : Nat := 254

theorem ElementType.ofId?_id (t : ElementType) : ofId? t.id = some t := by cases t <;> decide

theorem checkWord_eq {bits n : Nat} : checkWord false bits n =
    if n < Nat.pow 2 bits then .ok (n : Int) else .error (.wordRange n false bits) := by
  unfold checkWord
  by_cases h : n < Nat.pow 2 bits
  · rw [if_pos h, if_pos]
    simp only [Bool.false_eq_true, if_false]
    omega
  · rw [if_neg h, if_neg]
    simp only [Bool.false_eq_true, if_false]
    omega

theorem checkWord_count {n : Nat} :
    (∃ count, checkWord false 16 n = .ok count) ↔ n ≤ countLimit := by
  rw [checkWord_eq, exists_ite_eq_ok]
  exact Nat.lt_succ_iff

theorem wire_array (t : ElementType) (elements : List Value) :
    wire (.array t.id elements) = wireArray t elements := by
  rw [wire, t.ofId?_id]

/-- An array goes on the wire if it can be counted and each of its elements goes there. -/
theorem exists_wire {t : ElementType} {elements : List Value} :
    (∃ octets, wire (.array t.id elements) = .ok octets) ↔
      elements.length ≤ countLimit ∧ ∀ e ∈ elements, ∃ octets, wireElement t e = .ok octets := by
  rw [wire_array, ← checkWord_count, ← exists_mapM, wireArray]
  constructor
  · rintro ⟨octets, h⟩
    obtain ⟨count, hcount, h⟩ := bind_eq_ok.mp h
    obtain ⟨all, hall, -⟩ := bind_eq_ok.mp h
    exact ⟨⟨count, hcount⟩, all, hall⟩
  · rintro ⟨⟨count, hcount⟩, all, hall⟩
    exact ⟨_, bind_eq_ok.mpr ⟨count, hcount, bind_eq_ok.mpr ⟨all, hall, rfl⟩⟩⟩

theorem exists_wireElement_row {bs : List UInt8} :
    (∃ octets, wireElement .octetString (.bytes bs) = .ok octets) ↔ bs.length ≤ rowLimit := by
  rw [wireElement, exists_ite_eq_ok]
  exact Nat.lt_succ_iff

theorem checkWord_octet (n : Int) : checkWord false 8 n =
    if IsOctet n then .ok n else .error (.wordRange n false 8) := by
  have hrange : (0 ≤ n ∧ n < 0 + 256) ↔ IsOctet n := by
    unfold IsOctet
    omega
  exact if_congr hrange rfl rfl

/-- An integer on the wire as a data octet. -/
def wireOctet (n : Int) : Except Mismatch (List UInt8) :=
  if IsOctet n then .ok (littleEndian 1 n) else .error (.wordRange n false 8)

/-- A data octet is checked when it goes on the wire. -/
theorem wireElement_data {v : Value} {n : Int} (h : v.asIndex? = some n) :
    wireElement .data8 (.list [v]) = wireOctet n := by
  rw [wireElement, toInteger_of_asIndex? h]
  change (checkWord false 8 n >>= fun n => _) = _
  rw [checkWord_octet, wireOctet]
  split <;> rfl

theorem wireElements_data {vs : List Value} {ns : List Int} (h : Integers vs ns) :
    (vs.map fun v => Value.list [v]).mapM (wireElement .data8) = ns.mapM wireOctet := by
  refine mapM_congr (List.forall₂_map_left_iff.mpr ?_)
  exact h.imp fun _ _ hv => wireElement_data hv

theorem exists_wireOctet {n : Int} : (∃ octets, wireOctet n = .ok octets) ↔ IsOctet n :=
  exists_ite_eq_ok

/-- Integers go on the wire as data octets if they can be counted and all of them fit. -/
theorem exists_wire_data {vs : List Value} {ns : List Int} (h : Integers vs ns) :
    (∃ octets, wire (.array ElementType.data8.id (vs.map fun v => .list [v])) = .ok octets) ↔
      vs.length ≤ countLimit ∧ AreOctets ns := by
  rw [exists_wire, List.length_map, ← exists_mapM, wireElements_data h, exists_mapM]
  simp only [exists_wireOctet, AreOctets]

end Zcl

/-- A request that becomes a call all of whose arrays go on the wire. -/
def Request.Serializes (q : Request) : Prop :=
  ∃ call, ClusterCall.ofRequest q = .ok call ∧
    ∀ array ∈ call.arrays, ∃ octets, Zcl.wire array = .ok octets

namespace DeviceSetup
open Procedure

/-! ### Payloads as arrays -/

/-- A list of elements can be made an array of its type, and that goes on the wire. -/
def Serial (target : ArrayAttribute) (elements : List Value) : Prop :=
  ∃ array octets, Zcl.buildArray target.elementType (.list (elements.map ArrayWrite.element)) =
    .ok array ∧ Zcl.wire array = .ok octets

theorem serial_iff {target : ArrayAttribute} {elements : List Value} {array : Value}
    (h : Zcl.buildArray target.elementType (.list (elements.map ArrayWrite.element)) = .ok array) :
    Serial target elements ↔ ∃ octets, Zcl.wire array = .ok octets := by
  constructor
  · rintro ⟨array', octets, harray, hwire⟩
    cases h.symm.trans harray
    exact ⟨octets, hwire⟩
  · rintro ⟨octets, hwire⟩
    exact ⟨array, octets, h, hwire⟩

theorem serial_flags {vs : List Value} {flags : List UInt8} (h : Numbers vs flags)
    (hcount : vs.length ≤ Zcl.countLimit) : Serial .configurations vs := by
  rw [serial_iff (buildArray_flags h), flagArray, Zcl.exists_wire_data h.integers]
  exact ⟨hcount, areOctets_toNat flags⟩

theorem serial_rows {vs : List Value} {rows : List (List UInt8)}
    (h : List.Forall₂ (fun v bs => (ArrayWrite.element v).toOctets = .ok bs) vs rows)
    (hcount : vs.length ≤ Zcl.countLimit) :
    Serial .actions vs ↔ ∀ bs ∈ rows, bs.length ≤ Zcl.rowLimit := by
  have hlength : rows.length ≤ Zcl.countLimit := h.length_eq ▸ hcount
  rw [serial_iff (buildArray_rows h), rowArray, Zcl.exists_wire, List.length_map, List.forall_mem_map]
  simp only [Zcl.exists_wireElement_row, hlength, true_and]

/-- A raw row has no more octets than a row on the wire may have. -/
def ShortRow (v : Value) : Prop := ∀ row, v.items = .ok row → row.length ≤ Zcl.rowLimit

/-- Rows that have been checked go on the wire exactly if none of them is too long. -/
theorem serial_checkedRows {vs : List Value} (h : ∀ v ∈ vs, IsRow v)
    (hcount : vs.length ≤ Zcl.countLimit) : Serial .actions vs ↔ ∀ v ∈ vs, ShortRow v := by
  obtain ⟨rows, hrows⟩ := exists_forall₂ fun v hv => exists_row (h v hv)
  rw [serial_rows (hrows.imp fun _ _ hv => hv.2) hcount]
  have hshort : List.Forall₂ (fun v bs => bs.length ≤ Zcl.rowLimit ↔ ShortRow v) vs rows := by
    refine hrows.imp fun v bs hv => ?_
    obtain ⟨row, hrow, hnumbers⟩ := hv.1
    rw [← hnumbers.length_eq]
    constructor
    · intro hle row' hrow'
      cases hrow.symm.trans hrow'
      exact hle
    · intro hshort
      exact hshort row hrow
  exact ⟨forall_of_forall₂ hshort fun _ _ hv => hv.mp,
    forall_of_forall₂ hshort.flip fun _ _ hv => hv.mpr⟩

/-- Rows that are compiled from templates go on the wire. -/
theorem serial_compiledRows {templates model : Value} {bindings : List InputAction}
    (h : (compileInputActions templates model).outcome = .ok bindings)
    (hcount : bindings.length ≤ Zcl.countLimit) :
    Serial .actions (bindings.map InputAction.toValue) := by
  obtain ⟨rows, hrows⟩ := exists_octets_of_compile h
  refine (serial_rows (elements_toValue hrows) (by rwa [List.length_map])).mpr ?_
  have hshaped : ∀ b ∈ bindings, b.Shaped := fun b hb => (compiled_rows h b hb).1
  refine forall_of_forall₂ hrows.flip (fun bs b hb hshape => ?_) hshaped
  have hlength : bs.length = b.row.length := by
    rw [InputAction.octets_eq_ok.mp hb, List.length_map]
  have hpayload := hshape.payload
  rw [hlength, b.row_length, Zcl.rowLimit]
  omega

/-! ### Requests with these arrays -/

/-- The write of a payload that goes on the wire. -/
def ArrayWrite.IsSerial (w : ArrayWrite) : Prop :=
  ∃ array octets, Zcl.buildArray w.target.elementType (.list w.elements) = .ok array ∧
    Zcl.wire array = .ok octets

theorem Asks.serializes {q : Request} (h : Asks ArrayWrite.IsSerial q) : q.Serializes := by
  cases h with
  | build => exact ⟨_, rfl, List.forall_mem_nil _⟩
  | array h =>
    cases h with
    | read t => exact ⟨_, rfl, List.forall_mem_nil _⟩
    | plain h _ =>
      obtain ⟨array, octets, harray, hwire⟩ := h
      exact ⟨_, ofRequest_plain harray, List.forall_mem_singleton.mpr ⟨octets, hwire⟩⟩
    | structured h _ =>
      obtain ⟨array, octets, harray, hwire⟩ := h
      exact ⟨_, ofRequest_structured harray, List.forall_mem_singleton.mpr ⟨octets, hwire⟩⟩

/-- No list among the payloads has more elements than an array on the wire may have. -/
structure Payloads.Countable (payloads : Payloads) (compiled : Value) : Prop where
  configurations : ∀ vs, payloads.configurations = .list vs → vs.length ≤ Zcl.countLimit
  actions : ∀ vs, payloads.actions = .list vs → vs.length ≤ Zcl.countLimit
  compiled : ∀ vs, compiled = .list vs → vs.length ≤ Zcl.countLimit

/-- No raw row is too long for the wire. -/
def Payloads.Short (payloads : Payloads) : Prop :=
  ∀ vs, payloads.actions = .list vs → ∀ v ∈ vs, ShortRow v

/-- A payload is not given, or it goes on the wire as a list. -/
def Carried (target : ArrayAttribute) (payload : Value) : Prop :=
  payload = .null ∨ ∃ vs, payload = .list vs ∧ Serial target vs

section
variable {payloads : Payloads} {model compiled : Value} (hgood : payloads.Good model compiled)
  (hcount : payloads.Countable compiled)
include hgood hcount

theorem carried_configurations : Carried .configurations payloads.configurations := by
  rcases hgood.configurations with hnull | ⟨vs, hvs⟩
  · exact .inl hnull
  · obtain ⟨flags, hflags⟩ := exists_numbers (hgood.octets hvs)
    exact .inr ⟨_, hvs, serial_flags hflags (hcount.configurations _ hvs)⟩

theorem serial_actions {vs : List Value} (hvs : payloads.actions = .list vs) :
    Serial .actions vs ↔ ∀ v ∈ vs, ShortRow v :=
  serial_checkedRows (hgood.rows hvs) (hcount.actions vs hvs)

theorem carried_actions : Carried .actions payloads.actions ↔ payloads.Short := by
  rcases hgood.actions with hnull | ⟨vs, hvs⟩
  · refine ⟨fun _ vs hvs => ?_, fun _ => .inl hnull⟩
    cases hnull.symm.trans hvs
  · constructor
    · rintro (hnull | ⟨vs', hvs', hserial⟩) vs'' hvs''
      · cases hnull.symm.trans hvs
      · cases hvs'.symm.trans hvs''
        exact (serial_actions hgood hcount hvs').mp hserial
    · intro hshort
      exact .inr ⟨vs, hvs, (serial_actions hgood hcount hvs).mpr (hshort vs hvs)⟩

theorem carried_compiled : Carried .actions compiled := by
  by_cases hnull : payloads.templates.isNull
  · have hcompiles := hgood.compiles
    rw [compilePayload, if_pos hnull] at hcompiles
    cases hcompiles
    exact .inl rfl
  · obtain ⟨bindings, hbindings, rfl⟩ := (compilePayload_eq_ok hnull).mp hgood.compiles
    have hlength := hcount.compiled _ rfl
    rw [List.length_map] at hlength
    exact .inr ⟨_, rfl, serial_compiledRows hbindings hlength⟩

/-- Whatever is sent for payloads that go on the wire goes there. -/
theorem serializes_of_runs (hshort : payloads.Short) {build : Value} {verbose : Bool}
    {now finish : Nat} {t : List Exchange} {r : Except Stop Entries}
    (hrun : Runs (configure model build payloads verbose) now t r finish) :
    ∀ x ∈ t, x.request.Serializes := by
  have hcarried : ∀ p ∈ payloads.inOrder compiled, Carried p.1 p.2 := by
    simp only [Payloads.inOrder, List.forall_mem_cons]
    exact ⟨carried_configurations hgood hcount, (carried_actions hgood hcount).mpr hshort,
      carried_compiled hgood hcount, List.forall_mem_nil _⟩
  have hsends : Sends (Asks ArrayWrite.IsSerial) (configure model build payloads verbose) := by
    refine sends_configure fun _ compiled' hcompiled p hp structured w hgiven hw => ?_
    cases hgood.compiles.symm.trans hcompiled
    rcases hcarried p hp with hnull | ⟨vs, hvs, hserial⟩
    · exact absurd (hnull ▸ rfl) hgiven
    · rw [hvs] at hw
      cases hw
      exact hserial
  intro x hx
  exact (hsends.of_runs hrun x hx).serializes

end

/-- Of good payloads that can be counted, flags and rows from templates always go on the wire, and
raw rows do exactly if none of them has more octets than the wire counts. Then every request that is
sent goes there, in either form, so none fails for its values after another one has written. -/
theorem payloads_serialize {payloads : Payloads} {model compiled : Value}
    (hgood : payloads.Good model compiled) (hcount : payloads.Countable compiled) :
    Carried .configurations payloads.configurations ∧ Carried .actions compiled ∧
    (Carried .actions payloads.actions ↔ payloads.Short) ∧
    (payloads.Short → ∀ (build : Value) (verbose : Bool) (now finish : Nat) (t : List Exchange)
      (r : Except Stop Entries), Runs (configure model build payloads verbose) now t r finish →
      ∀ x ∈ t, x.request.Serializes) :=
  ⟨carried_configurations hgood hcount, carried_compiled hgood hcount,
    carried_actions hgood hcount, fun hshort _ _ _ _ _ _ hrun =>
      serializes_of_runs hgood hcount hshort hrun⟩

/-! ### The longest row and the next one -/

/-- A row of as many zeros. -/
def zeroRow (n : Nat) : Value := .list (List.replicate n (.int 0))

/-- One flag and one row. -/
def zeroRows (n : Nat) : Payloads := {
  configurations := .list [.int 1]
  actions := .list [zeroRow n] }

theorem shortRow_zeroRow {n : Nat} : ShortRow (zeroRow n) ↔ n ≤ Zcl.rowLimit := by
  constructor
  · intro h
    have hlength := h _ rfl
    rwa [List.length_replicate] at hlength
  · rintro h row hrow
    cases hrow
    rwa [List.length_replicate]

theorem isRow_zeroRow {n : Nat} (h : DecodedAction.headerLength ≤ n) : IsRow (zeroRow n) := by
  refine ⟨_, rfl, by rwa [List.length_replicate], fun x hx => ?_⟩
  rw [List.eq_of_mem_replicate hx]
  rfl

theorem good_zeroRows {n : Nat} (h : DecodedAction.headerLength ≤ n) :
    (zeroRows n).Good .null .null := by
  have hchecked : checkRaw (zeroRows n).configurations (zeroRows n).actions = .ok () :=
    checkRaw_eq_ok.mpr ⟨[.int 1], [zeroRow n], rfl, rfl, List.forall_mem_singleton.mpr rfl,
      List.forall_mem_singleton.mpr (isRow_zeroRow h)⟩
  exact ⟨.inr ⟨_, rfl⟩, .inr ⟨_, rfl⟩, hchecked, rfl⟩

theorem countable_zeroRows (n : Nat) : (zeroRows n).Countable .null := by
  refine ⟨fun vs hvs => ?_, fun vs hvs => ?_, fun vs hvs => ?_⟩
  all_goals cases hvs
  all_goals exact Nat.le_add_left 1 _

theorem short_zeroRows {n : Nat} : (zeroRows n).Short ↔ n ≤ Zcl.rowLimit := by
  rw [← shortRow_zeroRow]
  constructor
  · intro h
    exact h _ rfl _ List.mem_cons_self
  · intro h vs hvs
    cases hvs
    exact List.forall_mem_singleton.mpr h

/-- The longest row is sent. -/
theorem payloads_serialize_longest :
    (zeroRows Zcl.rowLimit).Good .null .null ∧ (zeroRows Zcl.rowLimit).Countable .null ∧
      Carried .actions (zeroRows Zcl.rowLimit).actions := by
  have hgood : (zeroRows Zcl.rowLimit).Good .null .null := good_zeroRows (by decide)
  have hcount := countable_zeroRows Zcl.rowLimit
  obtain ⟨-, -, hactions, -⟩ := payloads_serialize hgood hcount
  exact ⟨hgood, hcount, hactions.mpr (short_zeroRows.mpr (Nat.le_refl _))⟩

/-- The structured write of elements to an array. -/
def structuredWrite (target : ArrayAttribute) (elements : List Value) : Request :=
  .writeStructured .deviceSetup
    [(⟨target, elements.map ArrayWrite.element, true⟩ : ArrayWrite).asRecord] none

theorem serializes_of_serial {target : ArrayAttribute} {elements : List Value}
    (h : Serial target elements) : (structuredWrite target elements).Serializes :=
  Asks.serializes (.array (.structured (w := ⟨target, _, true⟩) h rfl))

theorem serial_of_serializes {target : ArrayAttribute} {elements : List Value} {array : Value}
    (hbuild : Zcl.buildArray target.elementType (.list (elements.map ArrayWrite.element)) = .ok array)
    (h : (structuredWrite target elements).Serializes) : Serial target elements := by
  obtain ⟨call, hcall, harrays⟩ := h
  cases (ofRequest_structured (w := ⟨target, _, true⟩) hbuild).symm.trans hcall
  exact (serial_iff hbuild).mpr (harrays array List.mem_cons_self)

/-- When the write of rows fails, that of flags has been carried out. -/
theorem exists_run_rows {payloads : Payloads} {flags rows : List Value}
    (hgood : payloads.Good .null .null) (hflags : payloads.configurations = .list flags)
    (hrows : payloads.actions = .list rows) (e : Fault) :
    ∃ finish, Runs (configure .null (.str "1.9.0") payloads false) 0
      [⟨structuredWrite .configurations flags, 0, some (0, .ok [])⟩,
        ⟨structuredWrite .actions rows, 0, some (0, .error e)⟩] (.error (.raised e)) finish := by
  refine ⟨0, ?_⟩
  rw [configure_eq]
  change Runs (Plan.ofOutcome (checkRaw payloads.configurations payloads.actions) >>= fun _ => _)
    0 _ _ 0
  rw [hgood.checked]
  refine runs_ofLogged_bind.mpr ?_
  rw [hgood.compiles]
  refine runs_ofLogged_bind.mpr ?_
  unfold writeAll
  rw [hflags, hrows]
  refine .inr ⟨0, .ok [], _, Nat.le_refl 0, rfl, ?_⟩
  exact .inr ⟨0, .error e, [], Nat.le_refl 0, rfl, rfl, rfl, rfl⟩

/-- A row with one octet more is accepted, but its array does not go on the wire, and its write is
asked for when the flag has been written. -/
theorem long_row_accepted :
    let payloads := zeroRows (Zcl.rowLimit + 1)
    let flags := structuredWrite .configurations [.int 1]
    let rows := structuredWrite .actions [zeroRow (Zcl.rowLimit + 1)]
    payloads.Good .null .null ∧ payloads.Countable .null ∧ ¬ Carried .actions payloads.actions ∧
    flags.Serializes ∧ ¬ rows.Serializes ∧
    ∀ e, ∃ finish, Runs (configure .null (.str "1.9.0") payloads false) 0
      [⟨flags, 0, some (0, .ok [])⟩, ⟨rows, 0, some (0, .error e)⟩] (.error (.raised e)) finish := by
  intro payloads flags rows
  have hgood : payloads.Good .null .null := good_zeroRows (by decide)
  have hcount : payloads.Countable .null := countable_zeroRows _
  have hlong : ¬ Carried .actions payloads.actions := by
    rw [carried_actions hgood hcount, short_zeroRows]
    exact Nat.not_succ_le_self _
  obtain ⟨octets, -, hoctets⟩ := exists_row (isRow_zeroRow (n := Zcl.rowLimit + 1) (by decide))
  have hbuild := buildArray_rows (.cons hoctets .nil)
  have hflags : Serial .configurations [.int 1] :=
    serial_flags (.cons (b := 1) rfl .nil) (by decide)
  refine ⟨hgood, hcount, hlong, serializes_of_serial hflags, fun hsent => hlong ?_,
    exists_run_rows hgood rfl rfl⟩
  exact .inr ⟨_, rfl, serial_of_serializes hbuild hsent⟩

end DeviceSetup

end Commissioning

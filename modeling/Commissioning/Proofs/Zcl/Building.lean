import Commissioning.Proofs.InputAction.RowFormat
import Commissioning.Zcl.TypedArray

/-!
Arrays of integers, as they are built from what a caller gives. Data octets are taken one by one and
kept as they are; a row becomes octets at once, and there each integer has to fit:

    [n, m, …]          data octets     [[n], [m], …]               whatever n and m are
    [[n, …], (m, …)]   octet strings   [octets n …, octets m …]    if n and m are 0 to 255
                                       out of range                else
-/
namespace Commissioning

/-! ### Integers as octets -/

/-- Integers all of which fit octets. -/
def AreOctets (ns : List Int) : Prop := ∀ n ∈ ns, IsOctet n

instance (ns : List Int) : Decidable (AreOctets ns) :=
  inferInstanceAs (Decidable (∀ n ∈ ns, IsOctet n))

theorem areOctets_toNat (bs : List UInt8) : AreOctets (bs.map fun b => (b.toNat : Int)) := by
  refine List.forall_mem_map.mpr fun b _ => ?_
  have hb : b.toNat < 256 := b.toNat_lt
  exact ⟨by omega, by omega⟩

/-- The octets of integers. -/
def octetsOf (ns : List Int) : List UInt8 := ns.map fun n => UInt8.ofNat n.toNat

theorem octetOfInt_eq (n : Int) : Value.octetOfInt n =
    if IsOctet n then .ok (UInt8.ofNat n.toNat) else .error .octetRange := by
  have hrange : (0 ≤ n ∧ n < 256) ↔ IsOctet n := by
    unfold IsOctet
    omega
  exact if_congr hrange rfl rfl

/-- The octets of integers, which are refused together if one of them does not fit. -/
theorem mapM_octetOfInt (ns : List Int) : ns.mapM Value.octetOfInt =
    if AreOctets ns then .ok (octetsOf ns) else .error .octetRange := by
  rw [funext octetOfInt_eq]
  exact mapM_ite ns

theorem AreOctets.ofOctets_eq {ns : List Int} (h : AreOctets ns) :
    Value.ofOctets (octetsOf ns) = .list (ns.map .int) := by
  rw [Value.ofOctets, octetsOf, List.map_map]
  congr 1
  refine List.map_congr_left fun n hn => congrArg Value.int ?_
  obtain ⟨hlow, hhigh⟩ := h n hn
  rw [UInt8.toNat_ofNat']
  omega

namespace Zcl

/-! ### Integers and rows as they are given -/

/-- The integers that values are; truth values count as integers. -/
def Integers (vs : List Value) (ns : List Int) : Prop :=
  List.Forall₂ (fun v n => v.asIndex? = some n) vs ns

/-- The integers of a row, which is given as octets, as a list or as a tuple. -/
inductive Sequence : Value → List Int → Prop where
  | octets (bs : List UInt8) : Sequence (.bytes bs) (bs.map fun b => (b.toNat : Int))
  | list {vs : List Value} {ns : List Int} (h : Integers vs ns) : Sequence (.list vs) ns
  | tuple {vs : List Value} {ns : List Int} (h : Integers vs ns) : Sequence (.tuple vs) ns

theorem integers_map_int (ns : List Int) : Integers (ns.map .int) ns := by
  rw [Integers, List.forall₂_map_left_iff, List.forall₂_same]
  exact fun _ _ => rfl

theorem toInteger_of_asIndex? {v : Value} {n : Int} (h : v.asIndex? = some n) :
    v.toInteger = .ok n := by
  cases v <;> first | exact congrArg Except.ok (Option.some.inj h) | cases h

theorem Integers.mapM_toOctet {vs : List Value} {ns : List Int} (h : Integers vs ns) :
    vs.mapM Value.toOctet = ns.mapM Value.octetOfInt := by
  refine mapM_congr (h.imp fun v n hv => ?_)
  rw [Value.toOctet, hv]

/-- In whichever form a row is given, its integers decide on its octets. -/
theorem Sequence.toOctets_eq {v : Value} {ns : List Int} (h : Sequence v ns) :
    v.toOctets = ns.mapM Value.octetOfInt := by
  cases h with
  | octets bs => exact (mapM_eq_ok.mpr (forall₂_octetOfInt.mpr rfl)).symm
  | list h => exact h.mapM_toOctet
  | tuple h => exact h.mapM_toOctet

/-! ### The arrays -/

theorem ElementType.ofValue_id (t : ElementType) : ofValue (.int t.id) = .ok t := by
  have hfind : all.find? (fun u => (Value.int t.id).sameKey (.int u.id)) = some t := by
    cases t <;> decide +kernel
  unfold ofValue
  rw [hfind]
  rfl

/-- The array of elements whose type is named by its number. -/
def arrayOf (type : Int) (elements : Value) : Except Mismatch Value := do
  buildArray (← ElementType.ofValue (.int type)) elements

theorem arrayOf_id (t : ElementType) (elements : Value) :
    arrayOf t.id elements = buildArray t elements := by
  rw [arrayOf, t.ofValue_id]
  rfl

theorem buildArray_list (t : ElementType) (vs : List Value) :
    buildArray t (.list vs) = (vs.mapM (coerceElement t)).map (.array t.id) := by
  change (vs.mapM (coerceElement t) >>= fun made => _) = _
  cases vs.mapM (coerceElement t) <;> rfl

theorem coerceElement_data {v : Value} {n : Int} (h : v.asIndex? = some n) :
    coerceElement .data8 v = .ok (.list [v]) := by
  cases v <;> first | rfl | cases h

/-- Integers are built as they are, each in a list of its own. -/
theorem buildArray_data {vs : List Value} {ns : List Int} (h : Integers vs ns) :
    buildArray .data8 (.list vs) =
      .ok (.array ElementType.data8.id (vs.map fun v => .list [v])) := by
  have helement : ∀ v ∈ vs, coerceElement .data8 v = .ok (.list [v]) :=
    forall_of_forall₂ (Q := fun _ => True) h (fun _ _ hv _ => coerceElement_data hv)
      fun _ _ => trivial
  have hmade : vs.mapM (coerceElement .data8) = .ok (vs.map fun v => .list [v]) := by
    rw [mapM_eq_ok, List.forall₂_map_right_iff, List.forall₂_same]
    exact helement
  rw [buildArray_list, hmade]
  rfl

/-- Rows that are octets are built from them. -/
theorem buildArray_octets {vs : List Value} {rows : List (List UInt8)}
    (h : List.Forall₂ (fun v bs => v.toOctets = .ok bs) vs rows) :
    buildArray .octetString (.list vs) =
      .ok (.array ElementType.octetString.id (rows.map .bytes)) := by
  have hmade : vs.mapM (coerceElement .octetString) = .ok (rows.map .bytes) := by
    rw [mapM_eq_ok, List.forall₂_map_right_iff]
    refine h.imp fun v bs hv => ?_
    rw [coerceElement, hv]
    rfl
  rw [buildArray_list, hmade]
  rfl

/-- A row becomes an element if all its integers fit octets. -/
theorem Sequence.coerceElement_eq {v : Value} {ns : List Int} (h : Sequence v ns) :
    coerceElement .octetString v =
      if AreOctets ns then .ok (.bytes (octetsOf ns)) else .error .octetRange := by
  rw [coerceElement, h.toOctets_eq, mapM_octetOfInt]
  split <;> rfl

/-- Rows are built if all their integers fit octets, and otherwise refused as out of range. -/
theorem buildArray_rows {vs : List Value} {rows : List (List Int)}
    (h : List.Forall₂ Sequence vs rows) : buildArray .octetString (.list vs) =
      if ∀ ns ∈ rows, AreOctets ns then
        .ok (.array ElementType.octetString.id ((rows.map octetsOf).map .bytes))
      else .error .octetRange := by
  have hmade : vs.mapM (coerceElement .octetString) =
      if ∀ ns ∈ rows, AreOctets ns then .ok (rows.map fun ns => .bytes (octetsOf ns))
      else .error .octetRange :=
    (mapM_congr (h.imp fun _ _ hv => hv.coerceElement_eq)).trans (mapM_ite rows)
  rw [buildArray_list, hmade, List.map_map]
  split <;> rfl

theorem arrayOf_data {vs : List Value} {ns : List Int} (h : Integers vs ns) :
    arrayOf 0x08 (.list vs) = .ok (.array ElementType.data8.id (vs.map fun v => .list [v])) :=
  (arrayOf_id .data8 _).trans (buildArray_data h)

theorem arrayOf_rows {vs : List Value} {rows : List (List Int)}
    (h : List.Forall₂ Sequence vs rows) : arrayOf 0x41 (.list vs) =
      if ∀ ns ∈ rows, AreOctets ns then
        .ok (.array ElementType.octetString.id ((rows.map octetsOf).map .bytes))
      else .error .octetRange :=
  (arrayOf_id .octetString _).trans (buildArray_rows h)

end Zcl

end Commissioning

import Commissioning.Proofs.DeviceSetup.Wire

/-!
Where an integer that does not fit an octet is found out. In a row it makes the array be refused. Data
octets are kept as they are, so their array is built with it, and only the wire refuses that:

    0 to 255 only                      ──▶ built ──▶ on the wire
    another number among data octets   ──▶ built ──▶ no unsigned 8 bit integer
    another number in a row            ──▶ out of range
-/
namespace Commissioning.Zcl

/-- Elements of a type of octets with all their integers: those of data octets are the elements
themselves, those of octet strings are in rows. -/
inductive Elements : ElementType → List Value → List Int → Prop where
  | data {vs : List Value} {ns : List Int} (h : Integers vs ns) : Elements .data8 vs ns
  | rows {vs : List Value} {rows : List (List Int)} (h : List.Forall₂ Sequence vs rows) :
    Elements .octetString vs rows.flatten

/-- The array of a type with these elements is refused, as a value that does not fit. -/
def Refused (type : Int) (elements : Value) : Prop :=
  ∃ e, arrayOf type elements = .error e ∧ Fault.mismatchCategory e = .value

/-- The wire refuses an array, as a value that does not fit. -/
def Unsent (array : Value) : Prop := ∃ e, wire array = .error e ∧ Fault.mismatchCategory e = .value

variable {vs : List Value} {ns : List Int} {rows : List (List Int)}

theorem not_areOctets : ¬ AreOctets ns ↔ ∃ n ∈ ns, ¬ IsOctet n := by
  simp [AreOctets]

theorem areOctets_flatten : AreOctets rows.flatten ↔ ∀ ns ∈ rows, AreOctets ns :=
  List.forall_mem_flatten

/-- Rows are refused exactly if an integer of one of them does not fit. -/
theorem refused_rows_iff (h : List.Forall₂ Sequence vs rows) :
    Refused 0x41 (.list vs) ↔ ¬ AreOctets rows.flatten := by
  rw [Refused, arrayOf_rows h, areOctets_flatten]
  constructor
  · rintro ⟨e, he, -⟩
    exact (ite_eq_error.mp he).1
  · intro hout
    exact ⟨.octetRange, ite_eq_error.mpr ⟨hout, rfl⟩, rfl⟩

theorem not_refused_data (h : Integers vs ns) : ¬ Refused 0x08 (.list vs) := by
  rintro ⟨e, he, -⟩
  cases (arrayOf_data h).symm.trans he

/-- Data octets one of which does not fit are refused by the wire. -/
theorem unsent_data (h : Integers vs ns) (hout : ¬ AreOctets ns) :
    Unsent (.array ElementType.data8.id (vs.map fun v => .list [v])) := by
  cases hwire : wire (.array ElementType.data8.id (vs.map fun v => .list [v])) with
  | ok octets => exact absurd ((exists_wire_data h).mp ⟨octets, hwire⟩).2 hout
  | error e =>
    refine ⟨e, hwire, ?_⟩
    rw [wire_array, wireArray, wireElements_data h] at hwire
    rcases bind_eq_error.mp hwire with hcount | ⟨count, -, hwire⟩
    · rw [checkWord_eq] at hcount
      obtain ⟨-, rfl⟩ := ite_eq_error.mp hcount
      rfl
    · rcases bind_eq_error.mp hwire with hall | ⟨all, -, hdone⟩
      · obtain ⟨n, -, hn⟩ := exists_of_mapM_error hall
        obtain ⟨-, rfl⟩ := ite_eq_error.mp hn
        rfl
      · cases hdone

/-- Elements that fit are built. Those that do not are refused, as rows when the array is built and as
data octets when it goes on the wire. So the array tells whether they fit, unless it is one of data
octets and they do not. -/
theorem refused_iff {t : ElementType} (h : Elements t vs ns) :
    ((Refused t.id (.list vs) ↔ ∃ n ∈ ns, ¬ IsOctet n) ↔ (t = .data8 → AreOctets ns)) ∧
    (AreOctets ns → ∃ array, arrayOf t.id (.list vs) = .ok array) ∧
    (¬ AreOctets ns → Refused t.id (.list vs) ∨
      ∃ array, arrayOf t.id (.list vs) = .ok array ∧ Unsent array) := by
  rw [← not_areOctets]
  cases h with
  | data h =>
    have hbuilt : Refused ElementType.data8.id (.list vs) ↔ False :=
      iff_false_intro (not_refused_data h)
    refine ⟨?_, fun _ => ⟨_, arrayOf_data h⟩, fun hout => .inr ⟨_, arrayOf_data h, unsent_data h hout⟩⟩
    rw [hbuilt, false_iff, not_not]
    exact ⟨fun hfit _ => hfit, fun hfit => hfit rfl⟩
  | rows h =>
    have hrefused := refused_rows_iff h
    refine ⟨iff_of_true hrefused nofun, fun hfit => ?_, fun hout => .inl (hrefused.mpr hout)⟩
    exact ⟨_, (arrayOf_rows h).trans (if_pos (areOctets_flatten.mp hfit))⟩

/-- A number too large for an octet is refused in a row, and on the wire as a data octet. -/
theorem refused_iff_tooLarge :
    let items : List Value := [.int 255, .int 256]
    Elements .octetString [.list items] [255, 256] ∧ Refused 0x41 (.list [.list items]) ∧
    Elements .data8 items [255, 256] ∧ ¬ AreOctets [255, 256] ∧
    ∃ array, arrayOf 0x08 (.list items) = .ok array ∧ Unsent array := by
  intro items
  have hints : Integers items [255, 256] := integers_map_int [255, 256]
  have hrow : Elements .octetString [.list items] [255, 256] := .rows (.cons (.list hints) .nil)
  have hout : ¬ AreOctets [255, 256] := by decide
  obtain ⟨hexact, -⟩ := refused_iff hrow
  obtain ⟨-, -, hwire⟩ := refused_iff (.data hints)
  have hrefused := (hexact.mpr nofun).mpr (not_areOctets.mp hout)
  exact ⟨hrow, hrefused, .data hints, hout, (hwire hout).resolve_left (not_refused_data hints)⟩

/-- The array of a data octet that is too large is built, although it does not fit. -/
theorem data_octet_unchecked :
    ¬ (Refused 0x08 (.list [.int 256]) ↔ ∃ n ∈ [(256 : Int)], ¬ IsOctet n) := by
  intro h
  have hint : Integers [.int 256] [256] := integers_map_int [256]
  exact not_refused_data hint (h.mpr ⟨256, List.mem_cons_self, by decide⟩)

end Commissioning.Zcl

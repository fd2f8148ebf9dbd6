import Commissioning.Proofs.Zcl.Building

/-!
Flattening: a value made plain. Arrays of integers and of rows come back as they were given, and what
has been made plain once stays as it is:

    [n, …]             ──build──▶ data octets    ──plain──▶ [n, …]
    [[n, …], octets]   ──build──▶ octet strings  ──plain──▶ [[n, …], [m, …]]
    any value v                                  ──plain──▶ w ──plain──▶ w
-/
namespace Commissioning.Zcl

theorem plainItems_eq (items : List Value) : plainItems items = items.mapM plain := by
  induction items with
  | nil => rw [plainItems, List.mapM_nil]; rfl
  | cons v items ih => rw [plainItems, List.mapM_cons, ih]

theorem exists_plainItems {items : List Value} (h : ∀ v ∈ items, ∃ w, plain v = .ok w) :
    ∃ ws, plainItems items = .ok ws := by
  rw [plainItems_eq]
  exact exists_mapM.mpr h

/-! ### Values that are plain already -/

/-- Numbers, texts, nothing and lists of them, to any depth. What is in a tuple or under a name may be
anything. -/
inductive Flat : Value → Prop where
  | null : Flat .null
  | bool (b : Bool) : Flat (.bool b)
  | int (n : Int) : Flat (.int n)
  | float (x : Binary64) : Flat (.float x)
  | str (s : String) : Flat (.str s)
  | list {items : List Value} (h : ∀ v ∈ items, Flat v) : Flat (.list items)
  | tuple (items : List Value) : Flat (.tuple items)
  | dict (entries : Entries) : Flat (.dict entries)

/-- A flat value is left as it is. -/
theorem Flat.plain_eq {v : Value} (h : Flat v) : plain v = .ok v := by
  induction h with
  | @list items _ ih =>
    have hitems : plainItems items = .ok items := by
      rw [plainItems_eq, mapM_eq_ok, List.forall₂_same]
      exact ih
    rw [plain, hitems]
    rfl
  | _ => rw [plain] <;> nofun

theorem flat_ints (ns : List Int) : Flat (.list (ns.map .int)) :=
  .list (List.forall_mem_map.mpr fun n _ => .int n)

theorem flat_ofOctets (bs : List UInt8) : Flat (.ofOctets bs) :=
  .list (List.forall_mem_map.mpr fun b _ => .int b.toNat)

theorem flat_of_plainData {elements : List Value} {w : Value} (h : plainData elements = .ok w) :
    Flat w := by
  obtain ⟨ns, -, h⟩ := bind_eq_ok.mp h
  cases h
  exact flat_ints ns

/-- The items of a value that is no list and no tuple are numbers or texts. -/
theorem flat_of_items {v : Value} {items : List Value} (h : v.items = .ok items)
    (hlist : ∀ xs, v ≠ .list xs) (htuple : ∀ xs, v ≠ .tuple xs) : Flat (.list items) := by
  cases v with
  | list xs => exact absurd rfl (hlist xs)
  | tuple xs => exact absurd rfl (htuple xs)
  | bytes bs =>
    cases h
    exact flat_ofOctets bs
  | str s =>
    cases h
    exact .list (List.forall_mem_map.mpr fun c _ => .str c.toString)
  | dict entries =>
    cases h
    exact .list (List.forall_mem_map.mpr fun e _ => .str e.1)
  | _ => cases h

mutual

/-- Whatever has been made plain is flat. -/
theorem flat_of_plain {v w : Value} (h : plain v = .ok w) : Flat w := by
  cases v with
  | null | bool | int | float | str | tuple | dict =>
    cases (Flat.plain_eq (by constructor)).symm.trans h
    constructor
  | status code =>
    rw [plain] at h
    cases h
    exact .int code
  | bytes bs =>
    rw [plain] at h
    cases h
    exact flat_ofOctets bs
  | list items =>
    rw [plain] at h
    obtain ⟨ws, hws, rfl⟩ := map_eq_ok.mp h
    exact .list (flat_of_plainItems hws)
  | array type elements =>
    rw [plain] at h
    split at h
    · exact flat_of_plainData h
    · obtain ⟨ws, hws, rfl⟩ := map_eq_ok.mp h
      exact .list (flat_of_plainItems hws)
  | typed type content =>
    cases content with
    | null =>
      rw [plain] at h
      cases h
      exact .list (List.forall_mem_nil _)
    | list items | tuple items =>
      rw [plain] at h
      split at h
      · exact flat_of_plainData h
      · obtain ⟨ws, hws, rfl⟩ := map_eq_ok.mp h
        exact .list (flat_of_plainItems hws)
    | _ =>
      -- any other content is only taken apart: what it has for items is not made plain again
      simp only [plain] at h
      split at h
      · obtain ⟨items, -, h⟩ := bind_eq_ok.mp h
        exact flat_of_plainData h
      · obtain ⟨items, hitems, rfl⟩ := map_eq_ok.mp h
        exact flat_of_items hitems nofun nofun

/-- The items of a collection have been made plain one by one. -/
theorem flat_of_plainItems {items ws : List Value} (h : plainItems items = .ok ws) :
    ∀ w ∈ ws, Flat w := by
  cases items with
  | nil =>
    rw [plainItems] at h
    cases h
    exact List.forall_mem_nil _
  | cons v items =>
    rw [plainItems] at h
    obtain ⟨w, hw, h⟩ := bind_eq_ok.mp h
    obtain ⟨rest, hrest, h⟩ := bind_eq_ok.mp h
    cases h
    exact List.forall_mem_cons.mpr ⟨flat_of_plain hw, flat_of_plainItems hrest⟩

end

/-- The values that stay as they are, are the flat ones. -/
theorem plain_eq_self_iff {v : Value} : plain v = .ok v ↔ Flat v := ⟨flat_of_plain, Flat.plain_eq⟩

/-- What has been made plain once stays as it is. -/
theorem plain_idempotent {v w : Value} (h : plain v = .ok w) : plain w = .ok w :=
  plain_eq_self_iff.mpr (flat_of_plain h)

/-! ### Arrays of integers and of rows -/

theorem plain_data {vs : List Value} {ns : List Int} (h : Integers vs ns) :
    plain (.array ElementType.data8.id (vs.map fun v => .list [v])) = .ok (.list (ns.map .int)) := by
  have hfirst : (vs.map fun v => Value.list [v]).mapM firstInteger = .ok ns := by
    rw [mapM_eq_ok, List.forall₂_map_left_iff]
    exact h.imp fun _ _ hv => toInteger_of_asIndex? hv
  rw [plain, if_pos rfl, plainData, hfirst]
  rfl

theorem plain_octets (rows : List (List UInt8)) :
    plain (.array ElementType.octetString.id (rows.map .bytes)) =
      .ok (.list (rows.map .ofOctets)) := by
  have hitems : plainItems (rows.map .bytes) = .ok (rows.map .ofOctets) := by
    rw [plainItems_eq, mapM_eq_ok, List.forall₂_map_left_iff, List.forall₂_map_right_iff,
      List.forall₂_same]
    intro bs _
    rw [plain]
  rw [plain, if_neg (by decide), hitems]
  rfl

/-- Elements that are built into an array and made plain again. -/
def flattened (type : Int) (elements : Value) : Except Mismatch Value := do
  plain (← arrayOf type elements)

/-- What a device may answer with: nothing, numbers, texts, octets, arrays of integers or rows, and
lists of such values to any depth. -/
inductive Nested : Value → Prop where
  | null : Nested .null
  | bool (b : Bool) : Nested (.bool b)
  | int (n : Int) : Nested (.int n)
  | status (code : Int) : Nested (.status code)
  | str (s : String) : Nested (.str s)
  | octets (bs : List UInt8) : Nested (.bytes bs)
  | list {items : List Value} (h : ∀ v ∈ items, Nested v) : Nested (.list items)
  | data {vs : List Value} {ns : List Int} {array : Value} (h : Integers vs ns)
    (harray : arrayOf 0x08 (.list vs) = .ok array) : Nested array
  | rows {vs : List Value} {rows : List (List Int)} {array : Value}
    (h : List.Forall₂ Sequence vs rows) (harray : arrayOf 0x41 (.list vs) = .ok array) :
    Nested array

theorem flattened_data {vs : List Value} {ns : List Int} (h : Integers vs ns) :
    flattened 0x08 (.list vs) = .ok (.list (ns.map .int)) := by
  rw [flattened, arrayOf_data h]
  exact plain_data h

theorem flattened_rows {vs : List Value} {rows : List (List Int)}
    (h : List.Forall₂ Sequence vs rows) (hrows : ∀ ns ∈ rows, AreOctets ns) :
    flattened 0x41 (.list vs) = .ok (.list (rows.map fun ns => .list (ns.map .int))) := by
  have hplain : (rows.map octetsOf).map Value.ofOctets =
      rows.map fun ns => .list (ns.map .int) := by
    rw [List.map_map]
    exact List.map_congr_left fun ns hns => (hrows ns hns).ofOctets_eq
  rw [flattened, arrayOf_rows h, if_pos hrows, ← hplain]
  exact plain_octets _

theorem Nested.exists_plain {v : Value} (h : Nested v) : ∃ w, plain v = .ok w := by
  induction h with
  | list _ ih =>
    obtain ⟨ws, hws⟩ := exists_plainItems ih
    exact ⟨.list ws, by rw [plain, hws]; rfl⟩
  | status code => exact ⟨.int code, by rw [plain]⟩
  | octets bs => exact ⟨.ofOctets bs, by rw [plain]⟩
  | data h harray =>
    cases (arrayOf_data h).symm.trans harray
    exact ⟨_, plain_data h⟩
  | rows h harray =>
    rw [arrayOf_rows h] at harray
    split at harray
    · cases harray
      exact ⟨_, plain_octets _⟩
    · cases harray
  | _ => exact ⟨_, Flat.plain_eq (by constructor)⟩

/-- Making plain undoes building: of integers the same list comes back, of rows the lists of their
integers in the same order. What a device may answer with can be made plain, and again with the same
result. -/
theorem flattening :
    (∀ vs ns, Integers vs ns → flattened 0x08 (.list vs) = .ok (.list (ns.map .int))) ∧
    (∀ vs rows, List.Forall₂ Sequence vs rows → (∀ ns ∈ rows, AreOctets ns) →
      flattened 0x41 (.list vs) = .ok (.list (rows.map fun ns => .list (ns.map .int)))) ∧
    ∀ v, Nested v → ∃ w, plain v = .ok w ∧ plain w = .ok w := by
  refine ⟨fun _ _ => flattened_data, fun _ _ => flattened_rows, fun v hv => ?_⟩
  obtain ⟨w, hw⟩ := hv.exists_plain
  exact ⟨w, hw, plain_idempotent hw⟩

/-- Rows in each form, one of them empty, and their array among other values. -/
theorem flattening_mixed :
    let items : List Value := [.int 0, .int 255]
    let rows : List Value := [.bytes [1, 255], .list [], .tuple [.int 7]]
    let array : Value := .array 0x41 [.bytes [1, 255], .bytes [], .bytes [7]]
    let v : Value := .list [.null, .list [array, .str "on"], .bytes [3]]
    Integers items [0, 255] ∧ flattened 0x08 (.list items) = .ok (.list items) ∧
    List.Forall₂ Sequence rows [[1, 255], [], [7]] ∧ (∀ ns ∈ [[1, 255], [], [7]], AreOctets ns) ∧
    flattened 0x41 (.list rows) =
      .ok (.list [.list [.int 1, .int 255], .list [], .list [.int 7]]) ∧
    Nested v ∧ ∃ w, plain v = .ok w ∧ plain w = .ok w := by
  intro items rows array v
  have hitems : Integers items [0, 255] := integers_map_int [0, 255]
  have hrows : List.Forall₂ Sequence rows [[1, 255], [], [7]] :=
    .cons (.octets [1, 255]) (.cons (.list .nil) (.cons (.tuple (.cons rfl .nil)) .nil))
  have hoctets : ∀ ns ∈ [[1, 255], [], [7]], AreOctets ns := by decide
  have hbuilt : arrayOf 0x41 (.list rows) = .ok array := by
    rw [arrayOf_rows hrows, if_pos hoctets]
    rfl
  have hv : Nested v := by
    refine .list (List.forall_mem_cons.mpr ⟨.null, List.forall_mem_cons.mpr ⟨.list ?_, ?_⟩⟩)
    · exact List.forall_mem_cons.mpr ⟨.rows hrows hbuilt, List.forall_mem_singleton.mpr (.str _)⟩
    · exact List.forall_mem_singleton.mpr (.octets _)
  obtain ⟨hdata, hflat, hnested⟩ := flattening
  exact ⟨hitems, hdata items _ hitems, hrows, hoctets, hflat rows _ hrows hoctets, hv, hnested v hv⟩

end Commissioning.Zcl

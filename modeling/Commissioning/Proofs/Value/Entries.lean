import Commissioning.Proofs.Lookup
import Commissioning.Value.Basic
import Mathlib.Logic.Function.Basic

/-!
Named values as a map. Putting a value changes what is found under its key only, and of two merged
collections the second wins.
-/
namespace Commissioning.Entries

theorem get?_nil (key : String) : get? [] key = none := rfl

theorem get?_cons (k : String) (v : Value) (more : Entries) (key : String) :
    get? ((k, v) :: more) key = if key = k then some v else get? more key := by
  rw [get?, get?, List.lookup_cons]
  by_cases h : key = k
  · simp [h]
  · simp [h, beq_false_of_ne h]

theorem get_of_none {entries : Entries} {key : String} (h : entries.get? key = none) :
    entries.get key = .null := by
  rw [get, h]
  rfl

theorem get_of_some {entries : Entries} {key : String} {v : Value} (h : entries.get? key = some v) :
    entries.get key = v := by
  rw [get, h]
  rfl

theorem get?_put (entries : Entries) (k : String) (v : Value) (key : String) :
    (entries.put k v).get? key = if key = k then some v else entries.get? key := by
  induction entries with
  | nil => rw [put, get?_cons]
  | cons e entries ih =>
    obtain ⟨l, w⟩ := e
    rw [put, get?_cons]
    by_cases h : l = k
    · subst h
      rw [if_pos rfl, get?_cons]
      split <;> rfl
    · rw [if_neg h, get?_cons, ih]
      by_cases hl : key = l
      · rw [if_pos hl, if_pos hl, if_neg (hl ▸ h)]
      · rw [if_neg hl, if_neg hl]

theorem get?_eq_none {entries : Entries} {key : String} (h : key ∉ entries.map Prod.fst) :
    entries.get? key = none := by
  induction entries with
  | nil => rfl
  | cons e entries ih =>
    obtain ⟨k, v⟩ := e
    obtain ⟨hk, hr⟩ := not_or.mp (List.mem_cons.not.mp h)
    rw [get?_cons, if_neg hk, ih hr]

theorem mem_keys_iff {entries : Entries} {key : String} :
    key ∈ entries.map Prod.fst ↔ ∃ v, entries.get? key = some v := by
  constructor
  · intro h
    cases hv : entries.get? key with
    | some v => exact ⟨v, rfl⟩
    | none =>
      obtain ⟨e, he, rfl⟩ := List.mem_map.mp h
      have hmissing := List.lookup_eq_none_iff.mp hv e he
      simp at hmissing
  · rintro ⟨v, hv⟩
    exact List.mem_map_of_mem (f := Prod.fst) (mem_of_lookup hv)

theorem nodup_put {entries : Entries} (hk : (entries.map Prod.fst).Nodup) (k : String) (v : Value) :
    ((entries.put k v).map Prod.fst).Nodup := by
  induction entries with
  | nil => exact List.nodup_cons.mpr ⟨List.not_mem_nil, List.nodup_nil⟩
  | cons e entries ih =>
    obtain ⟨l, w⟩ := e
    obtain ⟨hl, hrest⟩ := List.nodup_cons.mp hk
    rw [put]
    by_cases h : l = k
    · rw [if_pos h]
      exact List.nodup_cons.mpr ⟨h ▸ hl, hrest⟩
    · rw [if_neg h]
      refine List.nodup_cons.mpr ⟨fun hmem => hl ?_, ih hrest⟩
      obtain ⟨x, hx⟩ := mem_keys_iff.mp hmem
      rw [get?_put, if_neg h] at hx
      exact mem_keys_iff.mpr ⟨x, hx⟩

/-- What is found in a collection that holds each key once is what it holds. -/
theorem get?_eq_some_iff {entries : Entries} (hk : (entries.map Prod.fst).Nodup) {key : String}
    {v : Value} : entries.get? key = some v ↔ (key, v) ∈ entries := by
  refine ⟨mem_of_lookup, fun h => ?_⟩
  induction entries with
  | nil => cases h
  | cons e entries ih =>
    obtain ⟨k, w⟩ := e
    obtain ⟨hnot, hrest⟩ := List.nodup_cons.mp hk
    rw [get?_cons]
    rcases List.mem_cons.mp h with heq | hmem
    · cases heq
      rw [if_pos rfl]
    · have hne : key ≠ k := by
        rintro rfl
        have hkey := List.mem_map_of_mem (f := Prod.fst) hmem
        exact hnot hkey
      rw [if_neg hne, ih hrest hmem]

/-- What is found does not depend on the order of keys that are there once. -/
theorem get?_perm {entries more : Entries} (h : entries.Perm more)
    (hk : (entries.map Prod.fst).Nodup) (key : String) : entries.get? key = more.get? key := by
  ext v
  rw [get?_eq_some_iff hk, get?_eq_some_iff ((h.map Prod.fst).nodup hk), h.mem_iff]

/-- Leaving out keys with nothing under them changes nothing. -/
theorem get_filter_null {entries : Entries} (hk : (entries.map Prod.fst).Nodup)
    {keep : String × Value → Bool} (h : ∀ e ∈ entries, keep e = false → e.2 = .null) (key : String) :
    get (entries.filter keep) key = get entries key := by
  have hkept : ((entries.filter keep).map Prod.fst).Nodup :=
    hk.sublist (List.filter_sublist.map Prod.fst)
  cases hv : entries.get? key with
  | none =>
    have hnone : get? (entries.filter keep) key = none := by
      rw [Option.eq_none_iff_forall_ne_some]
      intro v hv'
      have hmem := (List.mem_filter.mp ((get?_eq_some_iff hkept).mp hv')).1
      cases hv.symm.trans ((get?_eq_some_iff hk).mpr hmem)
    rw [get_of_none hnone, get_of_none hv]
  | some v =>
    have hmem := (get?_eq_some_iff hk).mp hv
    cases hkeep : keep (key, v) with
    | true =>
      have hsome := (get?_eq_some_iff hkept).mpr (List.mem_filter.mpr ⟨hmem, hkeep⟩)
      rw [get_of_some hsome, get_of_some hv]
    | false =>
      have hnone : get? (entries.filter keep) key = none := by
        rw [Option.eq_none_iff_forall_ne_some]
        intro w hw
        obtain ⟨hw, hkept⟩ := List.mem_filter.mp ((get?_eq_some_iff hkept).mp hw)
        cases hv.symm.trans ((get?_eq_some_iff hk).mpr hw)
        rw [hkeep] at hkept
        cases hkept
      rw [get_of_none hnone, get_of_some hv]
      exact (h _ hmem hkeep).symm

theorem get?_append (entries more : Entries) (key : String) :
    get? (entries ++ more) key = (get? entries key).or (get? more key) := List.lookup_append

/-- Leaving keys out changes nothing for the others. -/
theorem get?_filter (entries : Entries) (p : String → Bool) {key : String} (h : p key) :
    get? (entries.filter fun e => p e.1) key = get? entries key := by
  induction entries with
  | nil => rfl
  | cons e entries ih =>
    obtain ⟨k, v⟩ := e
    by_cases hk : p k
    · rw [List.filter_cons_of_pos (by simpa using hk), get?_cons, get?_cons, ih]
    · have hne : key ≠ k := by
        rintro rfl
        exact hk h
      rw [List.filter_cons_of_neg (by simpa using hk), ih, get?_cons, if_neg hne]

theorem get?_leave (entries : Entries) {k key : String} (h : key ≠ k) :
    get? (entries.filter fun e => e.1 != k) key = get? entries key :=
  get?_filter entries (· != k) (by simpa using h)

/-- What is found in merged collections, if the second holds each key once. -/
theorem get?_merge (entries : Entries) {new : Entries} (hnew : (new.map Prod.fst).Nodup)
    (key : String) : (entries.merge new).get? key = (new.get? key).or (entries.get? key) := by
  induction new generalizing entries with
  | nil => rfl
  | cons e new ih =>
    obtain ⟨k, v⟩ := e
    obtain ⟨hk, hr⟩ := List.nodup_cons.mp hnew
    have hstep : (entries.merge ((k, v) :: new)) = (entries.put k v).merge new := rfl
    rw [hstep, ih _ hr, get?_put, get?_cons]
    by_cases h : key = k
    · rw [if_pos h, if_pos h, get?_eq_none (h ▸ hk)]
      rfl
    · rw [if_neg h, if_neg h]

/-! ### Writing a collection over a map -/

/-- A map after all entries have been written to it, one after the other. -/
def store (d : String → Option Value) (entries : Entries) : String → Option Value :=
  entries.foldl (fun d e => Function.update d e.1 (some e.2)) d

theorem store_cons (d : String → Option Value) (k : String) (v : Value) (entries : Entries) :
    store d ((k, v) :: entries) = store (Function.update d k (some v)) entries := rfl

theorem store_append (d : String → Option Value) (entries more : Entries) :
    store d (entries ++ more) = store (store d entries) more := List.foldl_append

theorem store_of_notMem {d : String → Option Value} {entries : Entries} {key : String}
    (h : key ∉ entries.map Prod.fst) : store d entries key = d key := by
  induction entries generalizing d with
  | nil => rfl
  | cons e entries ih =>
    obtain ⟨k, v⟩ := e
    obtain ⟨hk, hr⟩ := not_or.mp (List.mem_cons.not.mp h)
    rw [store_cons, ih hr, Function.update_of_ne hk]

theorem store_eq_get? {entries : Entries} (hk : (entries.map Prod.fst).Nodup)
    (d : String → Option Value) (key : String) :
    store d entries key = (entries.get? key).or (d key) := by
  induction entries generalizing d with
  | nil => rfl
  | cons e entries ih =>
    obtain ⟨k, v⟩ := e
    obtain ⟨ha, hr⟩ := List.nodup_cons.mp hk
    rw [store_cons, ih hr, get?_cons]
    by_cases h : key = k
    · rw [if_pos h, get?_eq_none (h ▸ ha), h, Function.update_self]
      rfl
    · rw [if_neg h, Function.update_of_ne h]

theorem findSome?_of_notMem {α : Type} {k : α → String} (f : α → Option Value) {items : List α}
    {key : String} (h : key ∉ items.map k) :
    (items.findSome? fun a => if k a = key then f a else none) = none := by
  rw [List.findSome?_eq_none_iff]
  intro a ha
  rw [if_neg]
  rintro rfl
  exact h (List.mem_map_of_mem ha)

/-- Where keys are distinct, what is found under the key of an item is found by that item. -/
theorem findSome?_of_nodup {α : Type} {k : α → String} (f : α → Option Value) {items : List α}
    (hk : (items.map k).Nodup) {a : α} (ha : a ∈ items) :
    (items.findSome? fun b => if k b = k a then f b else none) = f a := by
  induction items with
  | nil => cases ha
  | cons b items ih =>
    obtain ⟨hb, hr⟩ := List.nodup_cons.mp hk
    rw [List.findSome?_cons]
    rcases List.mem_cons.mp ha with rfl | ha
    · rw [if_pos rfl, findSome?_of_notMem f hb]
      cases f a <;> rfl
    · have hne : k b ≠ k a := fun h => hb (h ▸ List.mem_map_of_mem ha)
      rw [if_neg hne]
      exact ih hr ha

/-- What is found after writing what some of the items of a list give, each under a key of its
own. -/
theorem store_filterMap {α : Type} (k : α → String) (f : α → Option Value) {items : List α}
    (hk : (items.map k).Nodup) (d : String → Option Value) (key : String) :
    store d (items.filterMap fun a => (f a).map (k a, ·)) key =
      (items.findSome? fun a => if k a = key then f a else none).or (d key) := by
  induction items generalizing d with
  | nil => rfl
  | cons a items ih =>
    obtain ⟨ha, hr⟩ := List.nodup_cons.mp hk
    rw [List.filterMap_cons, List.findSome?_cons]
    cases hf : f a with
    | none => simpa [hf] using ih hr d
    | some v =>
      simp only [Option.map_some]
      rw [store_cons, ih hr]
      by_cases hak : k a = key
      · rw [findSome?_of_notMem f (hak ▸ ha), if_pos hak, hak, Function.update_self]
        rfl
      · rw [if_neg hak, Function.update_of_ne (Ne.symm hak)]

theorem findSome?_key (f : String → Option Value) (keys : List String) (key : String) :
    (keys.findSome? fun k => if k = key then f k else none) = if key ∈ keys then f key else none := by
  induction keys with
  | nil => rfl
  | cons k keys ih =>
    rw [List.findSome?_cons, ih]
    by_cases h : k = key
    · subst h
      cases hf : f k <;> simp
    · simp [h, Ne.symm h]

/-- What is found after writing what there is for some keys. -/
theorem store_keys (f : String → Option Value) {keys : List String} (hk : keys.Nodup)
    (d : String → Option Value) (key : String) :
    store d (keys.filterMap fun k => (f k).map (k, ·)) key =
      if key ∈ keys then (f key).or (d key) else d key := by
  have hstore : store d (keys.filterMap fun k => (f k).map (k, ·)) key =
      (keys.findSome? fun k => if k = key then f k else none).or (d key) :=
    store_filterMap id f ((List.map_id keys).symm ▸ hk) d key
  rw [hstore, findSome?_key]
  split <;> rfl

section
variable {α : Type} (k : α → String) (f : α → Option Value) {items : List α}

theorem get?_filterMap_eq_none {key : String} (h : ∀ a ∈ items, k a = key → f a = none) :
    get? (items.filterMap fun a => (f a).map (k a, ·)) key = none := by
  refine get?_eq_none fun hkey => ?_
  obtain ⟨e, he, rfl⟩ := List.mem_map.mp hkey
  obtain ⟨a, ha, hv⟩ := List.mem_filterMap.mp he
  obtain ⟨v, hv, rfl⟩ := Option.map_eq_some_iff.mp hv
  rw [h a ha rfl] at hv
  cases hv

/-- What is found under the key of an item, if items of one key give one value. -/
theorem get?_filterMap {a : α} (ha : a ∈ items) (h : ∀ b ∈ items, k b = k a → f b = f a) :
    get? (items.filterMap fun a => (f a).map (k a, ·)) (k a) = f a := by
  cases hf : f a with
  | none => exact get?_filterMap_eq_none k f fun b hb hk => (h b hb hk).trans hf
  | some v =>
    induction items with
    | nil => cases ha
    | cons b items ih =>
      obtain ⟨hb, hitems⟩ := List.forall_mem_cons.mp h
      rw [List.filterMap_cons]
      by_cases hk : k b = k a
      · rw [hb hk, hf]
        exact (get?_cons _ _ _ _).trans (if_pos hk.symm)
      · have hmem : a ∈ items := (List.mem_cons.mp ha).resolve_left (by rintro rfl; exact hk rfl)
        cases f b with
        | none => exact ih hmem hitems
        | some w => exact ((get?_cons _ _ _ _).trans (if_neg (Ne.symm hk))).trans (ih hmem hitems)

/-- The keys of what the items of a list give. -/
theorem map_key_filterMap {β : Type} (k : α → String) (f : α → Option β) (items : List α) :
    (items.filterMap fun a => (f a).map (k a, ·)).map Prod.fst =
      (items.filter fun a => (f a).isSome).map k := by
  induction items with
  | nil => rfl
  | cons a items ih => cases hf : f a <;> simp [hf, ih]

/-- What the items of a list give under the key of one of them, if each has a key of its own. -/
theorem filter_filterMap {a : α} {v : Value} (hk : (items.map k).Nodup) (ha : a ∈ items)
    (hv : f a = some v) :
    (items.filterMap fun a => (f a).map (k a, ·)).filter (fun e => e.1 == k a) = [(k a, v)] := by
  induction items with
  | nil => cases ha
  | cons b items ih =>
    obtain ⟨hb, hrest⟩ := List.nodup_cons.mp hk
    rw [List.filterMap_cons]
    rcases List.mem_cons.mp ha with rfl | hmem
    · have hnil : (items.filterMap fun a => (f a).map (k a, ·)).filter (fun e => e.1 == k a) = [] := by
        rw [List.filter_eq_nil_iff]
        intro e he heq
        have hkey := List.mem_map_of_mem (f := Prod.fst) he
        rw [map_key_filterMap, eq_of_beq heq] at hkey
        obtain ⟨c, hc, hcb⟩ := List.mem_map.mp hkey
        exact hb (hcb ▸ List.mem_map_of_mem (List.mem_filter.mp hc).1)
      rw [hv]
      simp only [Option.map_some]
      rw [List.filter_cons_of_pos (by simp), hnil]
    · have hne : k b ≠ k a := by
        intro heq
        exact hb (heq ▸ List.mem_map_of_mem hmem)
      cases f b with
      | none => exact ih hrest hmem
      | some w =>
        simp only [Option.map_some]
        rw [List.filter_cons_of_neg (by simpa using hne)]
        exact ih hrest hmem

end

theorem get?_keys (f : String → Option Value) (keys : List String) (key : String) :
    get? (keys.filterMap fun k => (f k).map (k, ·)) key = if key ∈ keys then f key else none := by
  by_cases h : key ∈ keys
  · rw [if_pos h]
    exact get?_filterMap id f h fun b _ hb => congrArg f hb
  · rw [if_neg h]
    exact get?_filterMap_eq_none id f fun b hb heq => absurd (heq ▸ hb) h

theorem map_fst_filterMap {β : Type} (f : String → Option β) (keys : List String) :
    (keys.filterMap fun k => (f k).map (k, ·)).map Prod.fst = keys.filter fun k => (f k).isSome :=
  (map_key_filterMap id f keys).trans (List.map_id _)

theorem keys_nodup (f : String → Option Value) {keys : List String} (hk : keys.Nodup) :
    ((keys.filterMap fun k => (f k).map (k, ·)).map Prod.fst).Nodup := by
  rw [map_fst_filterMap]
  exact hk.filter _

end Commissioning.Entries

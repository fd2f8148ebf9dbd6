import Commissioning.Service.Shared
import Commissioning.Proofs.Logged
import Commissioning.Proofs.Lookup

/-!
Tables of locks as a map from keys to locks. Asking for a lock makes it if it is not there, and
changes no other; putting a lock into another state changes that lock only.

    kind + "_locks" ──▶ table ── address ──▶ lock
-/
namespace Commissioning.LockTables
variable {tables : LockTables} {k k' : LockKey} {l : Lock}

theorem name_inj {a b : String} (h : name a = name b) : a = b :=
  String.append_left_inj _ |>.mp h

theorem key_ext (hk : k'.kind = k.kind) (ha : k'.address = k.address) : k' = k := by
  cases k
  cases k'
  simp_all

/-- A table with the lock of an address in another state. -/
def putIn (address : String) (l : Lock) (locks : List (String × Lock)) : List (String × Lock) :=
  locks.map fun (a, old) => (a, if a = address then l else old)

theorem lookup_putIn (address : String) (l : Lock) (locks : List (String × Lock)) (a : String) :
    (putIn address l locks).lookup a =
      (locks.lookup a).map fun old => if a = address then l else old :=
  lookup_map (fun a old => if a = address then l else old) locks a

theorem lookup_put (tables : LockTables) (k : LockKey) (l : Lock) (n : String) :
    (tables.put k l).lookup n = (tables.lookup n).map fun table =>
      if n = name k.kind then table.map (putIn k.address l) else table :=
  lookup_map (fun n (table : Option (List (String × Lock))) =>
    if n = name k.kind then table.map (putIn k.address l) else table) tables n

theorem lock?_put_self : (tables.put k l).lock? k = (tables.lock? k).map fun _ => l := by
  rw [lock?, lock?, lookup_put]
  cases tables.lookup (name k.kind) with
  | none => rfl
  | some table =>
    cases table with
    | none => simp
    | some locks => simp [lookup_putIn]

theorem lock?_put_of_ne (h : k' ≠ k) : (tables.put k l).lock? k' = tables.lock? k' := by
  rw [lock?, lock?, lookup_put]
  cases tables.lookup (name k'.kind) with
  | none => rfl
  | some table =>
    cases table with
    | none => simp
    | some locks =>
      by_cases hn : name k'.kind = name k.kind
      · have ha : k'.address ≠ k.address := by
          intro ha
          exact h (key_ext (name_inj hn) ha)
        simp [hn, lookup_putIn, ha]
      · simp [hn]

theorem lock?_cons (n : String) (table : Option (List (String × Lock))) (rest : LockTables)
    (k : LockKey) : lock? ((n, table) :: rest) k =
      if name k.kind = n then table.bind fun locks => locks.lookup k.address
      else lock? rest k := by
  rw [lock?, lock?, List.lookup_cons]
  by_cases h : name k.kind = n
  · simp [h]
  · simp [beq_false_of_ne h, h]

theorem lookup_append (locks : List (String × Lock)) (address a : String) (l : Lock) :
    (locks ++ [(address, l)]).lookup a =
      (locks.lookup a).or (if a = address then some l else none) := by
  induction locks with
  | nil =>
    rw [List.nil_append, List.lookup_cons]
    by_cases h : a = address
    · simp [h]
    · simp [beq_false_of_ne h, h]
  | cons e locks ih =>
    obtain ⟨b, m⟩ := e
    rw [List.cons_append, List.lookup_cons, List.lookup_cons, ih]
    split <;> rfl

/-- A table with a lock for an address. -/
theorem lookup_requested (locks : List (String × Lock)) (address a : String) :
    (if (locks.lookup address).isSome then locks else locks ++ [(address, .free)]).lookup a =
      if a = address then some ((locks.lookup address).getD .free) else locks.lookup a := by
  cases h : locks.lookup address with
  | some l =>
    by_cases ha : a = address
    · simp [ha, h]
    · simp [ha]
  | none =>
    by_cases ha : a = address
    · simp [ha, lookup_append, h]
    · simp [ha, lookup_append]

/-- A lock that is asked for is there, and free if it is new; no other lock changes. -/
theorem lock?_request {tables' : LockTables} (h : tables.request k = .ok tables') (k' : LockKey) :
    tables'.lock? k' = if k' = k then some ((tables.lock? k).getD .free) else tables.lock? k' := by
  induction tables generalizing tables' with
  | nil =>
    cases h
    rw [lock?_cons]
    by_cases hk : k' = k
    · simp [hk, lock?]
    · rw [if_neg hk]
      split
      · next hn =>
        have ha : k'.address ≠ k.address := fun ha => hk (key_ext (name_inj hn) ha)
        simp [lock?, List.lookup_cons, beq_false_of_ne ha]
      · rfl
  | cons e rest ih =>
    obtain ⟨n, table⟩ := e
    unfold request at h
    split at h
    · next hn =>
      split at h
      · next locks =>
        cases h
        subst hn
        rw [lock?_cons, lock?_cons, lock?_cons, if_pos rfl, Option.bind_some, Option.bind_some,
          Option.bind_some, lookup_requested]
        by_cases hk : k' = k
        · simp [hk]
        · by_cases hn : name k'.kind = name k.kind
          · have ha : k'.address ≠ k.address := fun ha => hk (key_ext (name_inj hn) ha)
            simp [hk, hn, ha]
          · simp [hk, hn]
      · cases h
    · next hn =>
      obtain ⟨rest', hr, h⟩ := bind_eq_ok.mp h
      cases h
      rw [lock?_cons, lock?_cons, lock?_cons, ih hr, if_neg (Ne.symm hn)]
      by_cases hk : k' = k
      · subst hk
        simp [Ne.symm hn]
      · simp [hk]

/-- Asking for a lock fails only if something else than a table is kept under its name. -/
theorem request_eq_ok_iff : (∃ tables', tables.request k = .ok tables') ↔
    tables.lookup (name k.kind) ≠ some none := by
  induction tables with
  | nil => exact ⟨fun _ => nofun, fun _ => ⟨_, rfl⟩⟩
  | cons e rest ih =>
    obtain ⟨n, table⟩ := e
    unfold request
    by_cases hn : n = name k.kind
    · subst hn
      rw [if_pos rfl, List.lookup_cons, beq_self_eq_true]
      cases table with
      | none => exact ⟨nofun, absurd rfl⟩
      | some locks => exact ⟨fun _ => nofun, fun _ => ⟨_, rfl⟩⟩
    · rw [if_neg hn, List.lookup_cons, beq_false_of_ne (Ne.symm hn), ← ih]
      constructor
      · rintro ⟨_, h⟩
        obtain ⟨rest', hr, -⟩ := bind_eq_ok.mp h
        exact ⟨rest', hr⟩
      · rintro ⟨rest', hr⟩
        exact ⟨(n, table) :: rest', bind_eq_ok.mpr ⟨rest', hr, rfl⟩⟩

/-- What a caller is told who asks for a lock where the host keeps something else. -/
def obstacle (tables : LockTables) (k : LockKey) : Mismatch :=
  match tables.lock? k with
  | some (.foreign v) => .missingPart v.typeName "locked"
  | _ => .missingPart (name k.kind) "setdefault"

theorem request_eq_error {e : Mismatch} (h : tables.request k = .error e) :
    e = tables.obstacle k := by
  have hnone : tables.lock? k = none := by
    have hnot : ¬ ∃ tables', tables.request k = .ok tables' := by
      rintro ⟨tables', hr⟩
      cases h.symm.trans hr
    rw [lock?, Classical.not_not.mp (mt request_eq_ok_iff.mpr hnot)]
    rfl
  rw [obstacle, hnone]
  induction tables with
  | nil => cases h
  | cons e' rest ih =>
    obtain ⟨n, table⟩ := e'
    unfold request at h
    split at h
    · next hn =>
      cases table with
      | some locks => cases h
      | none =>
        cases h
        rw [← hn]
    · next hn =>
      cases hr : request rest k with
      | ok rest' =>
        rw [hr] at h
        cases h
      | error e'' =>
        rw [hr] at h
        cases h
        refine ih hr ?_
        rw [lock?_cons, if_neg (Ne.symm hn)] at hnone
        exact hnone

/-- Asking for a lock changes nothing that is kept in place of a table. -/
theorem lookup_request {tables' : LockTables} (h : tables.request k = .ok tables') (n : String) :
    tables'.lookup n = some none ↔ tables.lookup n = some none := by
  induction tables generalizing tables' with
  | nil =>
    cases h
    rw [List.lookup_cons]
    split <;> simp
  | cons e rest ih =>
    obtain ⟨m, table⟩ := e
    unfold request at h
    split at h
    · split at h
      · cases h
        rw [List.lookup_cons, List.lookup_cons]
        split <;> simp
      · cases h
    · obtain ⟨rest', hr, h⟩ := bind_eq_ok.mp h
      cases h
      rw [List.lookup_cons, List.lookup_cons]
      split
      · rfl
      · exact ih hr

/-- Nothing else is kept where a lock is or is to be. -/
structure Proper (tables : LockTables) (k : LockKey) : Prop where
  table : tables.lookup (name k.kind) ≠ some none
  lock : ∀ v, tables.lock? k ≠ some (.foreign v)

theorem proper_of_lock? (h : tables.lock? k = some l) (hl : ∀ v, l ≠ .foreign v) :
    tables.Proper k := by
  constructor
  · intro htable
    simp [lock?, htable] at h
  · intro v hv
    rw [h] at hv
    exact hl v (Option.some.inj hv)

/-- Two groups of tables have the same in places where there are no locks. -/
structure Kept (tables tables' : LockTables) : Prop where
  table : ∀ n, tables'.lookup n = some none ↔ tables.lookup n = some none
  lock : ∀ k v, tables'.lock? k = some (.foreign v) ↔ tables.lock? k = some (.foreign v)

theorem Kept.rfl : Kept tables tables := ⟨fun _ => Iff.rfl, fun _ _ => Iff.rfl⟩

theorem Kept.symm {tables' : LockTables} (h : Kept tables tables') : Kept tables' tables :=
  ⟨fun n => (h.table n).symm, fun k v => (h.lock k v).symm⟩

theorem Kept.trans {tables' tables'' : LockTables} (h : Kept tables tables')
    (h' : Kept tables' tables'') : Kept tables tables'' :=
  ⟨fun n => (h'.table n).trans (h.table n), fun k v => (h'.lock k v).trans (h.lock k v)⟩

theorem Kept.proper {tables' : LockTables} (h : Kept tables tables') (k : LockKey) :
    tables'.Proper k ↔ tables.Proper k :=
  ⟨fun hp => ⟨mt (h.table _).mpr hp.table, fun v => mt (h.lock k v).mpr (hp.lock v)⟩,
    fun hp => ⟨mt (h.table _).mp hp.table, fun v => mt (h.lock k v).mp (hp.lock v)⟩⟩

theorem Kept.obstacle {tables' : LockTables} (h : Kept tables tables') (k : LockKey) :
    tables'.obstacle k = tables.obstacle k := by
  unfold LockTables.obstacle
  split
  · next v hv =>
    rw [(h.lock k v).mp hv]
  · next hnot =>
    split
    · next v hv => exact absurd ((h.lock k v).mpr hv) (hnot v)
    · rfl

theorem kept_request {tables' : LockTables} (h : tables.request k = .ok tables') :
    Kept tables tables' := by
  refine ⟨lookup_request h, fun k' v => ?_⟩
  rw [lock?_request h]
  by_cases hk : k' = k
  · subst hk
    cases tables.lock? k' <;> simp
  · rw [if_neg hk]

/-- Putting a lock into another state keeps everything else as it is. -/
theorem kept_put (hk : tables.Proper k) (hl : ∀ v, l ≠ .foreign v) : Kept tables (tables.put k l) := by
  constructor
  · intro n
    rw [lookup_put]
    cases tables.lookup n with
    | none => simp
    | some table =>
      cases table with
      | none => simp
      | some locks =>
        rw [Option.map_some]
        split <;> simp
  · intro k' v
    by_cases h : k' = k
    · subst h
      rw [lock?_put_self]
      simp [hl, hk.lock v]
    · rw [lock?_put_of_ne h]

/-- What the host keeps is no lock that is held. -/
theorem lock?_ofData (own : Entries) (k : LockKey) : (ofData own).lock? k ≠ some .held := by
  intro h
  obtain ⟨locks, htable, hlock⟩ := Option.bind_eq_some_iff.mp h
  have hmem := mem_of_lookup (Option.join_eq_some_iff.mp htable)
  obtain ⟨⟨n, v⟩, -, he⟩ := List.mem_map.mp hmem
  cases v with
  | dict entries =>
    cases he
    obtain ⟨⟨a, w⟩, -, hw⟩ := List.mem_map.mp (mem_of_lookup hlock)
    cases hw
  | _ => cases he

end Commissioning.LockTables

import Mathlib.Data.List.Nodup

/-!
Lookups in lists. The first pair of a key is the one that counts; where no two items have the same key,
an item is found by its own.
-/
namespace Commissioning
variable {κ α β : Type} [BEq κ] [LawfulBEq κ]

theorem lookup_map (f : κ → α → β) (entries : List (κ × α)) (key : κ) :
    (entries.map fun (k, a) => (k, f k a)).lookup key = (entries.lookup key).map (f key) := by
  induction entries with
  | nil => rfl
  | cons e entries ih =>
    obtain ⟨k, a⟩ := e
    rw [List.map_cons, List.lookup_cons, List.lookup_cons, ih]
    by_cases h : key = k
    · subst h
      simp
    · simp [beq_false_of_ne h]

theorem mem_of_lookup {entries : List (κ × α)} {key : κ} {a : α}
    (h : entries.lookup key = some a) : (key, a) ∈ entries := by
  induction entries with
  | nil => cases h
  | cons e entries ih =>
    obtain ⟨k, b⟩ := e
    rw [List.lookup_cons] at h
    split at h
    · next hk =>
      cases h
      rw [eq_of_beq hk]
      exact List.mem_cons_self
    · exact List.mem_cons_of_mem _ (ih h)

theorem find?_eq_some_of_nodup {k : α → κ} {items : List α} (hk : (items.map k).Nodup) {key : κ}
    {a : α} : (items.find? fun b => k b == key) = some a ↔ a ∈ items ∧ k a = key := by
  constructor
  · intro h
    have hkey := List.find?_some h
    exact ⟨List.mem_of_find?_eq_some h, eq_of_beq hkey⟩
  · rintro ⟨ha, rfl⟩
    obtain ⟨b, hb⟩ : ∃ b, (items.find? fun b => k b == k a) = some b := by
      rw [← Option.isSome_iff_exists, List.find?_isSome]
      exact ⟨a, ha, beq_self_eq_true _⟩
    have hkey := List.find?_some hb
    have hsame : k b = k a := eq_of_beq hkey
    rw [hb, List.inj_on_of_nodup_map hk (List.mem_of_find?_eq_some hb) ha hsame]

end Commissioning

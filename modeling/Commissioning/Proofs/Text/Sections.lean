import Commissioning.Text.Sections
import Mathlib.Data.List.Basic

/-!
Texts that are joined from sections and taken apart again. A section that does not hold the mark
between sections comes out as it went in; so does a text behind a mark, if what stands before it
does not hold the mark.

    ids ──intercalate──▶ id . id . id ──sections──▶ ids
    s, tag ──marked────▶ s - tag ──────cut────────▶ s, tag
-/
namespace Commissioning.Text
variable {sep : Char} {s : List Char}

theorem sections_eq_splitOn (sep : Char) (s : List Char) : sections sep s = s.splitOn sep := by
  induction s with
  | nil => rfl
  | cons c s ih =>
    obtain ⟨first, more, hs⟩ := List.exists_cons_of_ne_nil (List.splitOn_ne_nil sep s)
    rw [sections, ih, List.splitOn_cons_eq_if_modifyHead, hs]
    by_cases hc : c = sep
    · simp [hc]
    · simp [hc]

theorem sections_ne_nil (sep : Char) (s : List Char) : sections sep s ≠ [] := by
  rw [sections_eq_splitOn]
  exact List.splitOn_ne_nil sep s

theorem intercalate_sections (sep : Char) (s : List Char) :
    [sep].intercalate (sections sep s) = s := by
  rw [sections_eq_splitOn, List.intercalate_splitOn]

theorem sections_intercalate {ids : List (List Char)} (hids : ∀ id ∈ ids, sep ∉ id)
    (hne : ids ≠ []) : sections sep ([sep].intercalate ids) = ids := by
  rw [sections_eq_splitOn, List.splitOn_intercalate sep hids hne]

theorem notMem_intercalate {mark : Char} {ids : List (List Char)} (hsep : mark ≠ sep)
    (hids : ∀ id ∈ ids, mark ∉ id) : mark ∉ [sep].intercalate ids := by
  induction ids with
  | nil => exact List.not_mem_nil
  | cons id ids ih =>
    obtain ⟨hid, hrest⟩ := List.forall_mem_cons.mp hids
    cases ids with
    | nil => simpa [List.intercalate] using hid
    | cons next ids =>
      rw [List.intercalate_cons_cons]
      refine List.not_mem_append (List.not_mem_append hid ?_) (ih hrest)
      exact mt List.mem_singleton.mp hsep

/-- A text behind a mark; where there is no text there is no mark either. -/
def marked (mark : Char) : Option (List Char) → List Char
  | none => []
  | some tag => mark :: tag

theorem cut_marked (h : sep ∉ s) (tag : Option (List Char)) :
    cut sep (s ++ marked sep tag) = (s, tag) := by
  induction s with
  | nil =>
    cases tag with
    | none => rfl
    | some tag => exact if_pos rfl
  | cons c s ih =>
    obtain ⟨hc, hs⟩ := not_or.mp (mt List.mem_cons.mpr h)
    rw [List.cons_append, cut, if_neg (Ne.symm hc), ih hs]

/-- A text is made of what it is cut into. -/
theorem append_marked_cut (sep : Char) (s : List Char) :
    (cut sep s).1 ++ marked sep (cut sep s).2 = s := by
  induction s with
  | nil => rfl
  | cons c s ih =>
    rw [cut]
    by_cases hc : c = sep
    · rw [if_pos hc, hc]
      rfl
    · rw [if_neg hc]
      exact congrArg (c :: ·) ih

end Commissioning.Text

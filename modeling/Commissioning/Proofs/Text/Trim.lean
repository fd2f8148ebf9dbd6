import Commissioning.Text.Blank
import Commissioning.Text.Digit
import Mathlib.Data.List.Basic
import Mathlib.Data.List.TakeWhile

/-!
Texts without the blanks at their ends. Trimming looks at the two ends only: blanks that are put
there go again, and a text that starts and ends with something else stays as it is.

    blanks ++ s ++ blanks ──trim──▶ s
    d ++ s ────────────────trim──▶ d without its first blanks ++ s
-/
namespace Commissioning.Text
variable {s w w' : List Char}

/-- What holds of no digit of any script. -/
theorem not_of_isDigit {p : Char → Bool} {c : Char} (hc : isDigit c)
    (hp : ∀ z ∈ zeroDigits, ∀ i ∈ List.range 10, p (Char.ofNat (z + i)) = false) : p c = false := by
  rw [isDigit, digitValue?, Option.isSome_map, List.find?_isSome] at hc
  obtain ⟨z, hz, hc⟩ := hc
  rw [Bool.and_eq_true, decide_eq_true_iff, decide_eq_true_iff] at hc
  have hplace := hp z hz (c.toNat - z) (List.mem_range.mpr (by omega))
  rwa [Nat.add_sub_cancel' hc.1, Char.ofNat_toNat] at hplace

/-- No script has a blank among its digits. -/
theorem isBlank_of_isDigit {c : Char} (h : isDigit c) : isBlank c = false :=
  not_of_isDigit h (by decide +kernel)

theorem digitValue?_of_ascii {c : Char} (h : '0' ≤ c ∧ c ≤ '9') :
    digitValue? c = some (c.toNat - 0x30) := by
  have hlow : 0x30 ≤ c.toNat := h.1
  have hhigh : c.toNat ≤ 0x39 := h.2
  have hzero : (decide (0x30 ≤ c.toNat) && decide (c.toNat < 0x30 + 10)) = true := by
    rw [Bool.and_eq_true, decide_eq_true_iff, decide_eq_true_iff]
    omega
  obtain ⟨others, hothers⟩ : ∃ others, zeroDigits = 0x30 :: others := ⟨_, rfl⟩
  rw [digitValue?, hothers, List.find?_cons, hzero]
  rfl

theorem isDigit_of_ascii {c : Char} (h : '0' ≤ c ∧ c ≤ '9') : isDigit c := by
  rw [isDigit, digitValue?_of_ascii h]
  rfl

/-! ### The ends of a text -/

theorem dropWhile_isBlank_eq_self (h : ∀ c ∈ s.head?, isBlank c = false) :
    s.dropWhile isBlank = s := by
  cases s with
  | nil => rfl
  | cons c s => rw [List.dropWhile_cons_of_neg (by simp [h c rfl])]

theorem mem_getLast?_of_dropWhile {p : Char → Bool} {c : Char}
    (hc : c ∈ (s.dropWhile p).getLast?) : c ∈ s.getLast? := by
  obtain ⟨t, ht⟩ := List.dropWhile_suffix (l := s) p
  exact ht ▸ List.mem_getLast?_append_of_mem_getLast? hc

theorem trim_eq_dropWhile (h : ∀ c ∈ s.getLast?, isBlank c = false) :
    trim s = s.dropWhile isBlank := by
  rw [trim, dropWhile_isBlank_eq_self, List.reverse_reverse]
  intro c hc
  rw [List.head?_reverse] at hc
  exact h c (mem_getLast?_of_dropWhile hc)

/-- A trimmed text has no blank at either end. -/
theorem trim_eq_self_iff : trim s = s ↔
    (∀ c ∈ s.head?, isBlank c = false) ∧ ∀ c ∈ s.getLast?, isBlank c = false := by
  constructor
  · intro h
    constructor
    · intro c hc
      cases s with
      | nil => cases hc
      | cons d s =>
        cases hc
        by_contra hblank
        rw [Bool.not_eq_false] at hblank
        have hlength := congrArg List.length h
        rw [trim, List.dropWhile_cons_of_pos hblank, List.length_reverse, List.length_cons] at hlength
        have hleft := List.length_dropWhile_le isBlank s
        have hright := List.length_dropWhile_le isBlank (s.dropWhile isBlank).reverse
        rw [List.length_reverse] at hright
        omega
    · intro c hc
      rw [← h, trim, List.getLast?_reverse] at hc
      have hhead := List.head?_dropWhile_not isBlank (s.dropWhile isBlank).reverse
      rw [hc] at hhead
      simpa using hhead
  · rintro ⟨hhead, hlast⟩
    rw [trim_eq_dropWhile hlast, dropWhile_isBlank_eq_self hhead]

theorem trim_eq_self (h : ∀ c ∈ s, isBlank c = false) : trim s = s :=
  trim_eq_self_iff.mpr ⟨fun c hc => h c (List.mem_of_head? hc),
    fun c hc => h c (List.mem_of_getLast? hc)⟩

theorem trim_subset (s : List Char) : trim s ⊆ s := by
  intro c hc
  have hright := (List.dropWhile_suffix (l := (s.dropWhile isBlank).reverse) isBlank).subset
    (List.mem_reverse.mp hc)
  exact (List.dropWhile_suffix isBlank).subset (List.mem_reverse.mp hright)

/-- Blanks that surround a text do not count. -/
theorem trim_surrounded (hw : ∀ c ∈ w, isBlank c) (hw' : ∀ c ∈ w', isBlank c) :
    trim (w ++ s ++ w') = trim s := by
  rw [trim, trim, List.append_assoc, List.dropWhile_append_of_pos hw, List.dropWhile_append]
  split
  · next hnone =>
    have hempty : w'.dropWhile isBlank = [] := List.dropWhile_eq_nil_iff.mpr hw'
    rw [hempty, List.isEmpty_iff.mp hnone]
  · rw [List.reverse_append, List.dropWhile_append_of_pos]
    exact fun c hc => hw' c (List.mem_reverse.mp hc)

/-- In front of a trimmed text only the first blanks do not count. -/
theorem trim_append (hs : trim s = s) (hne : s ≠ []) : trim (w ++ s) = w.dropWhile isBlank ++ s := by
  obtain ⟨hhead, hlast⟩ := trim_eq_self_iff.mp hs
  rw [trim_eq_dropWhile, List.dropWhile_append, dropWhile_isBlank_eq_self hhead]
  · split
    · next hnone => rw [List.isEmpty_iff.mp hnone, List.nil_append]
    · rfl
  · intro c hc
    rw [List.getLast?_append, List.getLast?_eq_some_getLast hne] at hc
    exact hlast c (by rw [List.getLast?_eq_some_getLast hne]; exact hc)

end Commissioning.Text

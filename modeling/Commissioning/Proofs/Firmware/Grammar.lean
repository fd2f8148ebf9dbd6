import Commissioning.Firmware.Version
import Commissioning.Proofs.Text.Sections
import Commissioning.Proofs.Text.Trim

/-!
Semantic versions as they are written: three numbers, then a prerelease tag and build metadata, either
of which may be left out. The scan that reads versions accepts exactly the texts of this form, so what
is said about a version is said about its parts.

    major . minor . patch   - id . id …   + id . id …
    ╰───── numbers ─────╯   ╰─ tag ───╯   ╰─ build ─╯

    parts ──text──▶ characters ──parse──▶ version of the parts
-/
namespace Commissioning.Version
open Text

/-- A number: zero alone, or any digits behind a first one from 1 to 9. -/
inductive IsNumeral : List Char → Prop where
  | zero : IsNumeral ['0']
  | digits {c : Char} {rest : List Char} (hc : '1' ≤ c ∧ c ≤ '9') (hrest : ∀ d ∈ rest, isDigit d) :
    IsNumeral (c :: rest)

/-- A section of a prerelease tag: a number, or digits and then a word that starts with a letter
or a hyphen. -/
inductive IsIdentifier : List Char → Prop where
  | numeral {id : List Char} (h : IsNumeral id) : IsIdentifier id
  | word {ds rest : List Char} {c : Char} (hds : ∀ d ∈ ds, isDigit d) (hc : c.isAlpha ∨ c = '-')
    (hrest : ∀ x ∈ rest, isTagChar x) : IsIdentifier (ds ++ c :: rest)

/-- A section of build metadata. -/
def IsMetadata (id : List Char) : Prop := id ≠ [] ∧ ∀ c ∈ id, isTagChar c

/-- A tag: sections of one kind with dots between them. -/
def IsTag (IsId : List Char → Prop) (tag : List Char) : Prop :=
  ∃ ids, ids ≠ [] ∧ (∀ id ∈ ids, IsId id) ∧ tag = ['.'].intercalate ids

/-- The parts of a version. -/
structure Parts where
  major : List Char
  minor : List Char
  patch : List Char
  prerelease : Option (List Char)
  build : Option (List Char)

namespace Parts

/-- The numbers with dots between them. -/
def numbersText (p : Parts) : List Char := ['.'].intercalate [p.major, p.minor, p.patch]

/-- The text without build metadata. -/
def coreText (p : Parts) : List Char := p.numbersText ++ marked '-' p.prerelease

/-- The text of all parts. -/
def text (p : Parts) : List Char := p.coreText ++ marked '+' p.build

/-- The parts are what the grammar asks for. -/
structure Fit (p : Parts) : Prop where
  numerals : ∀ ds ∈ [p.major, p.minor, p.patch], IsNumeral ds
  prerelease : ∀ tag, p.prerelease = some tag → IsTag IsIdentifier tag
  build : ∀ tag, p.build = some tag → IsTag IsMetadata tag

/-- The version that the parts make. Build metadata are no part of it. -/
def version (p : Parts) : Version where
  major := digitsValue p.major
  minor := digitsValue p.minor
  patch := digitsValue p.patch
  prerelease := p.prerelease
  text := p.coreText

end Parts

/-- A text is a complete semantic version, with nothing before it and nothing behind it. -/
def Writes (s : List Char) (v : Version) : Prop := ∃ p : Parts, p.Fit ∧ s = p.text ∧ v = p.version

/-! ### The scans of the sections -/

theorem isNumber_iff {ds : List Char} : isNumber ds ↔ IsNumeral ds := by
  constructor
  · intro h
    unfold isNumber at h
    split at h
    · exact .zero
    · rw [Bool.and_eq_true, Bool.and_eq_true, decide_eq_true_iff, decide_eq_true_iff,
        List.all_eq_true] at h
      exact .digits h.1 h.2
    · cases h
  · rintro (_ | ⟨hc, hrest⟩)
    · rfl
    · rw [isNumber]
      · rw [Bool.and_eq_true, Bool.and_eq_true, decide_eq_true_iff, decide_eq_true_iff,
          List.all_eq_true]
        exact ⟨hc, hrest⟩
      · rintro rfl
        exact absurd hc.1 (by decide)

theorem not_isDigit_of_word {c : Char} (h : c.isAlpha ∨ c = '-') : ¬ isDigit c := by
  intro hc
  have hplain : (c.isAlpha || c == '-') = false :=
    not_of_isDigit (p := fun c => c.isAlpha || c == '-') hc (by decide +kernel)
  rw [Bool.or_eq_false_iff, beq_eq_false_iff_ne] at hplain
  rcases h with h | rfl
  · exact Bool.false_ne_true (hplain.1.symm.trans h)
  · exact hplain.2 rfl

theorem isPrereleaseId_iff {id : List Char} : isPrereleaseId id ↔ IsIdentifier id := by
  unfold isPrereleaseId
  rw [Bool.or_eq_true, isNumber_iff]
  constructor
  · rintro (h | h)
    · exact .numeral h
    · split at h
      · next c rest hrest =>
        rw [Bool.and_eq_true, Bool.or_eq_true, beq_iff_eq, List.all_eq_true] at h
        rw [← List.takeWhile_append_dropWhile (p := isDigit) (l := id), hrest]
        exact .word (List.all_eq_true.mp List.all_takeWhile) h.1 h.2
      · cases h
  · rintro (h | ⟨hds, hc, hrest⟩)
    · exact .inl h
    · right
      rw [List.dropWhile_append_of_pos hds, List.dropWhile_cons_of_neg (not_isDigit_of_word hc)]
      simp only [Bool.and_eq_true, Bool.or_eq_true, beq_iff_eq, List.all_eq_true]
      exact ⟨hc, hrest⟩

theorem isBuildId_iff {id : List Char} : isBuildId id ↔ IsMetadata id := by
  simp [isBuildId, IsMetadata]

/-! ### The characters of the parts -/

theorem IsNumeral.digit {ds : List Char} (h : IsNumeral ds) : ds ≠ [] ∧ ∀ c ∈ ds, isDigit c := by
  cases h with
  | zero =>
    refine ⟨List.cons_ne_nil _ _, fun c hc => ?_⟩
    obtain rfl := List.mem_singleton.mp hc
    decide +kernel
  | digits hc hrest =>
    refine ⟨List.cons_ne_nil _ _, List.forall_mem_cons.mpr ⟨isDigit_of_ascii ?_, hrest⟩⟩
    exact ⟨Std.le_trans (by decide) hc.1, hc.2⟩

/-- A mark stands nowhere in a section. -/
theorem notMem_metadata {mark : Char} {id : List Char} (hmark : ¬ isTagChar mark)
    (h : IsMetadata id) : mark ∉ id := fun hmem => hmark (h.2 mark hmem)

theorem notMem_identifier {mark : Char} {id : List Char} (hmark : ¬ isTagChar mark)
    (hdigit : ¬ isDigit mark) (h : IsIdentifier id) : mark ∉ id := by
  intro hmem
  cases h with
  | numeral h => exact hdigit (h.digit.2 mark hmem)
  | word hds hc hrest =>
    rcases List.mem_append.mp hmem with hmem | hmem
    · exact hdigit (hds mark hmem)
    · rcases List.mem_cons.mp hmem with rfl | hmem
      · refine hmark ?_
        rw [isTagChar, Bool.or_eq_true, beq_iff_eq]
        exact hc.imp_left fun h => by simp [Char.isAlphanum, h]
      · exact hmark (hrest mark hmem)

/-- The sections of a tag are found again by their dots. -/
theorem tagFits_iff {isId : List Char → Bool} {IsId : List Char → Prop}
    (hid : ∀ id, isId id ↔ IsId id) (hdot : ∀ id, IsId id → '.' ∉ id) {tag : Option (List Char)} :
    tagFits isId tag ↔ ∀ t, tag = some t → IsTag IsId t := by
  cases tag with
  | none => simp [tagFits]
  | some t =>
    rw [tagFits, List.all_eq_true]
    constructor
    · intro h t' ht
      obtain rfl := Option.some.inj ht
      refine ⟨sections '.' t, sections_ne_nil _ _, fun id hmem => (hid id).mp (h id hmem), ?_⟩
      exact (intercalate_sections '.' t).symm
    · intro h id hmem
      obtain ⟨ids, hne, hids, rfl⟩ := h t rfl
      rw [sections_intercalate (fun id hid => hdot id (hids id hid)) hne] at hmem
      exact (hid id).mpr (hids id hmem)

theorem notMem_tag {IsId : List Char → Prop} {mark : Char} {tag : List Char} (hdot : mark ≠ '.')
    (hid : ∀ id, IsId id → mark ∉ id) (h : IsTag IsId tag) : mark ∉ tag := by
  obtain ⟨ids, -, hids, rfl⟩ := h
  exact notMem_intercalate hdot fun id hmem => hid id (hids id hmem)

namespace Parts.Fit
variable {p : Parts}

theorem numeral (hp : p.Fit) : IsNumeral p.major ∧ IsNumeral p.minor ∧ IsNumeral p.patch := by
  simpa using hp.numerals

theorem notMem_numeral {mark : Char} (hp : p.Fit) (hmark : ¬ isDigit mark) :
    ∀ ds ∈ [p.major, p.minor, p.patch], mark ∉ ds :=
  fun ds hds hmem => hmark ((hp.numerals ds hds).digit.2 mark hmem)

theorem sections_numbersText (hp : p.Fit) :
    sections '.' p.numbersText = [p.major, p.minor, p.patch] :=
  sections_intercalate (hp.notMem_numeral (by decide +kernel)) (List.cons_ne_nil _ _)

theorem notMem_numbersText {mark : Char} (hp : p.Fit) (hdot : mark ≠ '.')
    (hmark : ¬ isDigit mark) : mark ∉ p.numbersText :=
  notMem_intercalate hdot (hp.notMem_numeral hmark)

theorem notMem_coreText {mark : Char} (hp : p.Fit) (hdot : mark ≠ '.') (hdigit : ¬ isDigit mark)
    (htagged : ¬ isTagChar mark) : mark ∉ p.coreText := by
  refine List.not_mem_append (hp.notMem_numbersText hdot hdigit) ?_
  cases htag : p.prerelease with
  | none => exact List.not_mem_nil
  | some tag =>
    have hdash : mark ≠ '-' := by
      rintro rfl
      exact htagged rfl
    refine List.not_mem_cons_of_ne_of_not_mem hdash ?_
    exact notMem_tag hdot (fun _ => notMem_identifier htagged hdigit) (hp.prerelease tag htag)

theorem notMem_text {mark : Char} (hp : p.Fit) (hdot : mark ≠ '.') (hplus : mark ≠ '+')
    (hdigit : ¬ isDigit mark) (htagged : ¬ isTagChar mark) : mark ∉ p.text := by
  refine List.not_mem_append (hp.notMem_coreText hdot hdigit htagged) ?_
  cases htag : p.build with
  | none => exact List.not_mem_nil
  | some tag =>
    refine List.not_mem_cons_of_ne_of_not_mem hplus ?_
    exact notMem_tag hdot (fun _ => notMem_metadata htagged) (hp.build tag htag)

theorem plus_notMem_coreText (hp : p.Fit) : '+' ∉ p.coreText :=
  hp.notMem_coreText (by decide) (by decide +kernel) (by decide)

theorem cut_text (hp : p.Fit) : cut '+' p.text = (p.coreText, p.build) :=
  cut_marked hp.plus_notMem_coreText p.build

theorem cut_coreText (hp : p.Fit) : cut '-' p.coreText = (p.numbersText, p.prerelease) :=
  cut_marked (hp.notMem_numbersText (by decide) (by decide +kernel)) p.prerelease

end Parts.Fit

/-! ### The scan of a whole version -/

theorem identifiers_fit {tag : Option (List Char)} :
    tagFits isPrereleaseId tag ↔ ∀ t, tag = some t → IsTag IsIdentifier t :=
  tagFits_iff (fun _ => isPrereleaseId_iff)
    (fun _ => notMem_identifier (by decide) (by decide +kernel))

theorem metadata_fit {tag : Option (List Char)} :
    tagFits isBuildId tag ↔ ∀ t, tag = some t → IsTag IsMetadata t :=
  tagFits_iff (fun _ => isBuildId_iff) (fun _ => notMem_metadata (by decide))

/-- A text is read as a version exactly if it is one, but for blanks around it and one mark in
front. -/
theorem parse?_eq_some_iff {s : List Char} {v : Version} :
    parse? s = some v ↔ Writes (unmarked (trim s)) v := by
  unfold parse?
  generalize unmarked (trim s) = u
  constructor
  · intro h
    have htext := append_marked_cut '+' u
    have hcore := append_marked_cut '-' (cut '+' u).1
    have hnumbers := intercalate_sections '.' (cut '-' (cut '+' u).1).1
    dsimp only at h
    split at h
    · next major minor patch hsections =>
      split at h
      · next hfits =>
        simp only [Bool.and_eq_true, isNumber_iff, identifiers_fit, metadata_fit] at hfits
        obtain ⟨⟨⟨⟨hmajor, hminor⟩, hpatch⟩, hprerelease⟩, hbuild⟩ := hfits
        rw [hsections] at hnumbers
        -- the pieces between the marks, with the marks between them, are the text again
        let p : Parts := ⟨major, minor, patch, (cut '-' (cut '+' u).1).2, (cut '+' u).2⟩
        have hpcore : p.coreText = (cut '+' u).1 := by
          rw [← hcore, ← hnumbers]
          rfl
        refine ⟨p, ⟨?_, hprerelease, hbuild⟩, ?_, ?_⟩
        · simp only [List.forall_mem_cons]
          exact ⟨hmajor, hminor, hpatch, List.forall_mem_nil _⟩
        · rw [Parts.text, hpcore]
          exact htext.symm
        · cases h
          rw [Parts.version, hpcore]
      · cases h
    · cases h
  · rintro ⟨p, hp, rfl, rfl⟩
    obtain ⟨hmajor, hminor, hpatch⟩ := hp.numeral
    -- no mark stands inside a part, so each cut finds the part that it is for
    rw [hp.cut_text]
    dsimp only
    rw [hp.cut_coreText]
    dsimp only
    rw [hp.sections_numbersText]
    dsimp only
    rw [if_pos]
    · rfl
    · simp only [Bool.and_eq_true, isNumber_iff, identifiers_fit, metadata_fit]
      exact ⟨⟨⟨⟨hmajor, hminor⟩, hpatch⟩, hp.prerelease⟩, hp.build⟩

/-! ### What surrounds a version -/

theorem isBlank_of_isTagChar {c : Char} (h : isTagChar c) : isBlank c = false := by
  have hwithin {a b : Char} (ha : '-' ≤ a) (hb : b ≤ 'z') (h : a ≤ c ∧ c ≤ b) :
      '-' ≤ c ∧ c ≤ 'z' := ⟨Std.le_trans ha h.1, Std.le_trans h.2 hb⟩
  have hboth {a b : Char} (h : (decide (a ≤ c) && decide (c ≤ b)) = true) : a ≤ c ∧ c ≤ b := by
    rwa [Bool.and_eq_true, decide_eq_true_iff, decide_eq_true_iff] at h
  have hrange : '-' ≤ c ∧ c ≤ 'z' := by
    have hkinds : (((c.isUpper || c.isLower) || c.isDigit) || c == '-') = true := h
    rw [Bool.or_eq_true, Bool.or_eq_true, Bool.or_eq_true, beq_iff_eq] at hkinds
    rcases hkinds with ((h | h) | h) | rfl
    · exact hwithin (a := 'A') (b := 'Z') (by decide) (by decide) (of_decide_eq_true h)
    · exact hwithin (a := 'a') (b := 'z') (by decide) (by decide) (hboth h)
    · exact hwithin (a := '0') (b := '9') (by decide) (by decide) (hboth h)
    · decide
  have hlow : 0x2d ≤ c.toNat := hrange.1
  have hhigh : c.toNat ≤ 0x7a := hrange.2
  simp only [isBlank, Bool.or_eq_false_iff, Bool.and_eq_false_iff, decide_eq_false_iff_not,
    beq_eq_false_iff_ne]
  omega

theorem not_isDigit_of_isDecoration {c : Char} (h : isDecoration c) : ¬ isDigit c := by
  simp only [isDecoration, Bool.or_eq_true, beq_iff_eq] at h
  rcases h with (((rfl | rfl) | rfl) | rfl) | rfl <;> decide +kernel

namespace Parts.Fit
variable {p : Parts}

theorem isBlank_text (hp : p.Fit) : ∀ c ∈ p.text, isBlank c = false := by
  intro c hc
  by_contra hblank
  rw [Bool.not_eq_false] at hblank
  have hother {d : Char} (hd : isBlank d = false) : c ≠ d := by
    rintro rfl
    exact Bool.false_ne_true (hd.symm.trans hblank)
  refine hp.notMem_text (hother rfl) (hother rfl) (fun h => ?_) (fun h => ?_) hc
  · exact Bool.false_ne_true ((isBlank_of_isDigit h).symm.trans hblank)
  · exact Bool.false_ne_true ((isBlank_of_isTagChar h).symm.trans hblank)

theorem trim_text (hp : p.Fit) : trim p.text = p.text := trim_eq_self hp.isBlank_text

/-- A version starts with a digit. -/
theorem exists_text_eq_cons (hp : p.Fit) : ∃ c rest, p.text = c :: rest ∧ isDigit c := by
  obtain ⟨hne, hdigits⟩ := hp.numeral.1.digit
  obtain ⟨c, rest, hmajor⟩ := List.exists_cons_of_ne_nil hne
  have hdigit : isDigit c := hdigits c (hmajor ▸ List.mem_cons_self)
  refine ⟨c, rest ++ ['.'] ++ ['.'].intercalate [p.minor, p.patch] ++ marked '-' p.prerelease ++
    marked '+' p.build, ?_, hdigit⟩
  rw [Parts.text, Parts.coreText, Parts.numbersText, List.intercalate_cons_cons, hmajor]
  rfl

theorem unmarked_text (hp : p.Fit) : unmarked p.text = p.text := by
  obtain ⟨c, rest, htext, hdigit⟩ := hp.exists_text_eq_cons
  have hplain : ¬ isDecoration c := fun h => not_isDigit_of_isDecoration h hdigit
  rw [htext, unmarked]
  · exact fun _ h => hplain ((List.cons.inj h).1 ▸ rfl)
  · exact fun _ h => hplain ((List.cons.inj h).1 ▸ rfl)

theorem undecorated_text (hp : p.Fit) : undecorated p.text = p.text := by
  obtain ⟨c, rest, htext, hdigit⟩ := hp.exists_text_eq_cons
  have hplain : ¬ isDecoration c := fun h => not_isDigit_of_isDecoration h hdigit
  rw [undecorated, hp.trim_text, htext, List.dropWhile_cons_of_neg hplain]

/-- A version that stands alone is read as it is. -/
theorem parse?_text (hp : p.Fit) : parse? p.text = some p.version :=
  parse?_eq_some_iff.mpr ⟨p, hp, by rw [hp.trim_text, hp.unmarked_text], rfl⟩

end Parts.Fit

end Commissioning.Version

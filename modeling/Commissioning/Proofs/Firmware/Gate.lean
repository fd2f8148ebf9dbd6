import Commissioning.Proofs.Firmware.Grammar
import Commissioning.Proofs.Logged
import Mathlib.Data.List.Lex

/-!
What the gate answers for every build identifier. The identifier is stripped down to what has to be
a version; the numbers of that version are compared with those of the first version that takes
structured writes, one by one and as numbers:

    build ──trim, undecorate──▶ ──trim, unmark──▶ bare ──parse──▶ version
                                                                   │ numbers
                                    no version ─▶ no     1.9.0 < ──┴── ≤ 1.9.0
                                                          yes           no, but yes for 1.9.0 itself

Decoration is gone before the version is read and build metadata are no part of it, so neither counts.
-/
namespace Commissioning

namespace Version
open Text
variable {v v' w : Version} {p : Parts}

/-- What is read as the version of a build identifier. -/
def bare (build : List Char) : List Char := unmarked (trim (undecorated build))

/-- Is a version or comes after it, if that version is a release. -/
def Reaches (v release : Version) : Prop :=
  release.numbers < v.numbers ∨ v.numbers = release.numbers ∧ v.prerelease = none

instance (v release : Version) : Decidable (v.Reaches release) :=
  inferInstanceAs (Decidable (_ ∨ _))

/-- Comes before a version: by its numbers, or as a prerelease with the same numbers. Which of two
prereleases with the same numbers comes first is left open. -/
def Precedes (v v' : Version) : Prop :=
  v.numbers < v'.numbers ∨ v.numbers = v'.numbers ∧ v.prerelease.isSome

/-- No number is too long of those that a comparison reads. -/
def Legible : List Nat → List Nat → Prop
  | n :: ns, m :: ms =>
    (Nat.toDigits 10 n).length ≤ Number.digitLimit ∧ (n = m → Legible ns ms)
  | _, _ => True

/-- The comparison is the lexicographic one. -/
theorem comesAfter_eq_ok {ns ms : List Nat} {answer : Bool} (hlength : ns.length = ms.length) :
    comesAfter ns ms = .ok answer ↔ Legible ns ms ∧ answer = decide (ms < ns) := by
  induction ns generalizing ms with
  | nil =>
    obtain rfl := List.eq_nil_of_length_eq_zero hlength.symm
    simp [comesAfter, Legible, eq_comm]
  | cons n ns ih =>
    obtain ⟨m, ms, rfl⟩ := List.exists_cons_of_length_eq_add_one hlength.symm
    rw [comesAfter, readNumber, Legible, bind_eq_ok]
    by_cases hlong : Number.digitLimit < (Nat.toDigits 10 n).length
    · rw [if_pos hlong]
      exact ⟨nofun, fun h => absurd h.1.1 (Nat.not_le_of_lt hlong)⟩
    · rw [if_neg hlong]
      have hshort := Nat.not_lt.mp hlong
      -- the first numbers that differ decide, and those behind them are not read
      by_cases hsame : n = m
      · subst hsame
        have hrest := @ih ms (Nat.succ.inj hlength)
        simp [hshort, hrest]
      · have hfirst : m :: ms < n :: ns ↔ m < n := by
          rw [List.cons_lt_cons_iff]
          exact or_iff_left fun h => hsame h.1.symm
        simp [hshort, hsame, hfirst, eq_comm, pure, Except.pure]

/-! ### The first version that takes structured writes -/

theorem le_foldl_digits (ds : List Char) (n : Nat) :
    n ≤ ds.foldl (fun n c => 10 * n + (digitValue? c).getD 0) n := by
  induction ds generalizing n with
  | nil => exact Nat.le_refl n
  | cons d ds ih =>
    have hstep : n ≤ 10 * n + (digitValue? d).getD 0 := by omega
    exact Nat.le_trans hstep (ih _)

/-- A number below ten is written in one way only. -/
theorem IsNumeral.eq_digitChar {ds : List Char} (h : IsNumeral ds) (hlow : digitsValue ds < 10) :
    ds = [Nat.digitChar (digitsValue ds)] := by
  cases h with
  | zero => decide +kernel
  | @digits c rest hc hrest =>
    have hvalue := digitValue?_of_ascii (c := c) ⟨Std.le_trans (by decide) hc.1, hc.2⟩
    have hone : 0x31 ≤ c.toNat := hc.1
    have hnine : c.toNat ≤ 0x39 := hc.2
    have hchar : ∀ k < 9, Char.ofNat (0x31 + k) = Nat.digitChar (k + 1) := by decide
    cases rest with
    | nil =>
      have hc' := hchar (c.toNat - 0x31) (by omega)
      rw [Nat.add_sub_cancel' hone, Char.ofNat_toNat] at hc'
      rw [digitsValue, List.foldl_cons, hvalue, List.foldl_nil]
      conv_lhs => rw [hc']
      congr 2
      change c.toNat - 0x31 + 1 = 10 * 0 + (c.toNat - 0x30)
      omega
    | cons d rest =>
      rw [digitsValue, List.foldl_cons, List.foldl_cons, hvalue] at hlow
      have hgrown := le_foldl_digits rest
        (10 * (10 * 0 + (some (c.toNat - 0x30)).getD 0) + (digitValue? d).getD 0)
      simp only [Option.getD_some] at hgrown hlow
      omega

namespace Parts.Fit

theorem core (hp : p.Fit) : ({ p with build := none } : Parts).Fit :=
  ⟨hp.numerals, hp.prerelease, nofun⟩

/-- A version is read again from its own text. -/
theorem parse?_coreText (hp : p.Fit) : parse? p.coreText = some p.version := by
  have h := hp.core.parse?_text
  rwa [show ({ p with build := none } : Parts).text = p.coreText from List.append_nil _] at h

theorem coreText_eq_firstStructured_iff (hp : p.Fit) : p.coreText = firstStructured.text ↔
    p.version.numbers = firstStructured.numbers ∧ p.prerelease = none := by
  constructor
  · intro h
    have hread := hp.parse?_coreText
    rw [h, show parse? firstStructured.text = some firstStructured by decide +kernel] at hread
    have hversion : firstStructured = p.version := Option.some.inj hread
    exact ⟨by rw [hversion], (congrArg Version.prerelease hversion).symm⟩
  · rintro ⟨hnumbers, hprerelease⟩
    obtain ⟨hmajor, hminor, hpatch⟩ := hp.numeral
    simp only [numbers, Parts.version, firstStructured, List.cons.injEq, and_true] at hnumbers
    obtain ⟨hone, hnine, hzero⟩ := hnumbers
    have hmajor := hmajor.eq_digitChar (by omega)
    have hminor := hminor.eq_digitChar (by omega)
    have hpatch := hpatch.eq_digitChar (by omega)
    rw [Parts.coreText, Parts.numbersText, hprerelease, hmajor, hminor, hpatch, hone, hnine, hzero]
    rfl

theorem takesStructured_eq_ok {answer : Bool} (hp : p.Fit) :
    p.version.takesStructured = .ok answer ↔
      Legible p.version.numbers firstStructured.numbers ∧
        answer = decide (p.version.Reaches firstStructured) := by
  have hfirst := hp.coreText_eq_firstStructured_iff
  unfold takesStructured
  by_cases htext : p.version.text = firstStructured.text
  · obtain ⟨hnumbers, hprerelease⟩ := hfirst.mp htext
    have hlegible : Legible firstStructured.numbers firstStructured.numbers :=
      ⟨by decide, fun _ => ⟨by decide, fun _ => ⟨by decide, fun _ => trivial⟩⟩⟩
    have hreaches : p.version.Reaches firstStructured := .inr ⟨hnumbers, hprerelease⟩
    rw [if_pos htext, hnumbers, decide_eq_true hreaches]
    simp [hlegible, eq_comm]
  · have hother : ¬ (p.version.numbers = firstStructured.numbers ∧ p.prerelease = none) :=
      fun h => htext (hfirst.mpr h)
    have hreaches : p.version.Reaches firstStructured ↔
        firstStructured.numbers < p.version.numbers := or_iff_left hother
    have hlength : p.version.numbers.length = firstStructured.numbers.length := rfl
    rw [if_neg htext, comesAfter_eq_ok hlength]
    simp only [hreaches]

end Parts.Fit

/-! ### The gate -/

/-- What is read of a build identifier is a version that is written out in full. -/
theorem outcome_ofValue_str (build : String) :
    (ofValue (.str build)).outcome = .ok (ofBuild? build) := by
  unfold ofValue
  split
  · next hempty =>
    have hnone : build = "" := by simpa [Value.isTruthy] using hempty
    have hread : ofBuild? "" = none := by decide +kernel
    rw [hnone, hread]
    rfl
  · split
    · next v hv =>
      change _ = Except.ok (ofBuild? (Value.str build).toText)
      rw [hv]
      rfl
    · next hv =>
      change _ = Except.ok (ofBuild? (Value.str build).toText)
      rw [hv]

theorem ofBuild?_eq_some_iff {build : String} :
    ofBuild? build = some v ↔ Writes (bare build.toList) v := parse?_eq_some_iff

theorem ofBuild?_eq_none_iff {build : String} :
    ofBuild? build = none ↔ ∀ v, ¬ Writes (bare build.toList) v := by
  rw [Option.eq_none_iff_forall_ne_some]
  exact forall_congr' fun v => not_congr ofBuild?_eq_some_iff

end Version

theorem outcome_supportsStructuredWrite (build : String) :
    (supportsStructuredWrite (.str build)).outcome = match Version.ofBuild? build with
      | some v => ofMismatch v.takesStructured
      | none => .ok false := by
  rw [supportsStructuredWrite, Logged.outcome_bind, Version.outcome_ofValue_str]
  cases Version.ofBuild? build <;> rfl

/-- The gate answers by the numbers, if those that it reads are not too long. -/
theorem supportsStructuredWrite_eq_ok {build : String} {v : Version} {answer : Bool}
    (hv : Version.Writes (Version.bare build.toList) v) :
    (supportsStructuredWrite (.str build)).outcome = .ok answer ↔
      Version.Legible v.numbers Version.firstStructured.numbers ∧
        answer = decide (v.Reaches Version.firstStructured) := by
  rw [outcome_supportsStructuredWrite, Version.ofBuild?_eq_some_iff.mpr hv]
  obtain ⟨p, hp, -, rfl⟩ := hv
  exact mapError_eq_ok.trans hp.takesStructured_eq_ok

theorem supportsStructuredWrite_of_unwritten {build : String}
    (h : ∀ v, ¬ Version.Writes (Version.bare build.toList) v) :
    (supportsStructuredWrite (.str build)).outcome = .ok false := by
  rw [outcome_supportsStructuredWrite, Version.ofBuild?_eq_none_iff.mpr h]

/-! ### What does not count -/

namespace Version
open Text
variable {s : List Char} {v v' w : Version}

/-- What an identifier may have around the text that counts. -/
structure Dress where
  before : List Char
  decoration : List Char
  metadata : Option (List Char)
  after : List Char
  before_blank : ∀ c ∈ before, isBlank c
  decorates : ∀ c ∈ decoration, isDecoration c
  metadata_fit : ∀ tag, metadata = some tag → IsTag IsMetadata tag
  after_blank : ∀ c ∈ after, isBlank c

/-- A text with all that around it. -/
def Dress.on (dress : Dress) (s : List Char) : List Char :=
  dress.before ++ (dress.decoration ++ (s ++ marked '+' dress.metadata)) ++ dress.after

theorem isBlank_marked {tag : Option (List Char)} (h : ∀ t, tag = some t → IsTag IsMetadata t) :
    ∀ c ∈ marked '+' tag, isBlank c = false := by
  intro c hc
  by_contra hblank
  rw [Bool.not_eq_false] at hblank
  cases tag with
  | none => cases hc
  | some t =>
    have hdot : c ≠ '.' := by
      rintro rfl
      exact absurd hblank (by decide)
    have htagged : ¬ isTagChar c := fun h =>
      Bool.false_ne_true ((isBlank_of_isTagChar h).symm.trans hblank)
    rcases List.mem_cons.mp hc with rfl | hc
    · exact absurd hblank (by decide)
    · exact notMem_tag hdot (fun _ => notMem_metadata htagged) (h t rfl) hc

theorem unmarked_subset (s : List Char) : unmarked s ⊆ s := by
  unfold unmarked
  split
  · exact List.subset_cons_self _ _
  · exact List.subset_cons_self _ _
  · exact List.Subset.refl s

theorem bare_subset (s : List Char) : bare s ⊆ s := by
  intro c hc
  have hundecorated := trim_subset _ (unmarked_subset _ hc)
  exact trim_subset s ((List.dropWhile_suffix isDecoration).subset hundecorated)

theorem unmarked_append_marked (s : List Char) (tag : Option (List Char)) :
    unmarked (s ++ marked '+' tag) = unmarked s ++ marked '+' tag := by
  cases s with
  | nil =>
    cases tag with
    | none => rfl
    | some t => rfl
  | cons c s =>
    rw [List.cons_append]
    unfold unmarked
    split
    · next h => cases h; rfl
    · next h => cases h; rfl
    · next hv hV =>
      split
      · next h => cases h; exact absurd rfl (hv _)
      · next h => cases h; exact absurd rfl (hV _)
      · rfl

/-- Trimming and undecorating leave build metadata where they are. -/
theorem trim_append_marked {tag : Option (List Char)}
    (htag : ∀ t, tag = some t → IsTag IsMetadata t) (hs : ∀ c ∈ s.getLast?, isBlank c = false) :
    trim (s ++ marked '+' tag) = trim s ++ marked '+' tag := by
  cases tag with
  | none => rw [marked, List.append_nil, List.append_nil]
  | some t => rw [trim_append (trim_eq_self (isBlank_marked htag)) (List.cons_ne_nil _ _),
      trim_eq_dropWhile hs]

theorem dropWhile_append_marked (s : List Char) (tag : Option (List Char)) :
    (s ++ marked '+' tag).dropWhile isDecoration = s.dropWhile isDecoration ++ marked '+' tag := by
  have hmarked : (marked '+' tag).dropWhile isDecoration = marked '+' tag := by
    cases tag with
    | none => rfl
    | some t => rfl
  rw [List.dropWhile_append, hmarked]
  split
  · next hnone => rw [List.isEmpty_iff.mp hnone, List.nil_append]
  · rfl

theorem undecorated_decorated {d : List Char} (hd : ∀ c ∈ d, isDecoration c) (hs : trim s = s) :
    undecorated (d ++ s) = s.dropWhile isDecoration := by
  have hdropped {t : List Char} (ht : ∀ c ∈ t, isDecoration c) :
      (t ++ s).dropWhile isDecoration = s.dropWhile isDecoration :=
    List.dropWhile_append_of_pos ht
  by_cases hne : s = []
  · subst hne
    rw [undecorated, List.append_nil]
    exact List.dropWhile_eq_nil_iff.mpr fun c hc => hd c (trim_subset d hc)
  · rw [undecorated, trim_append hs hne]
    exact hdropped fun c hc => hd c ((List.dropWhile_suffix isBlank).subset hc)

/-- Of all that an identifier may have around it, only the build metadata are left behind the text
that is read. -/
theorem bare_on (dress : Dress) (hs : trim s = s) :
    bare (dress.on s) = bare s ++ marked '+' dress.metadata := by
  obtain ⟨hhead, hlast⟩ := trim_eq_self_iff.mp hs
  have hwhole : trim (s ++ marked '+' dress.metadata) = s ++ marked '+' dress.metadata := by
    rw [trim_append_marked dress.metadata_fit hlast, hs]
  have hundecorated : undecorated (dress.on s) = undecorated s ++ marked '+' dress.metadata := by
    have hinner := undecorated_decorated dress.decorates hwhole
    rw [undecorated] at hinner
    rw [undecorated, Dress.on, trim_surrounded dress.before_blank dress.after_blank, hinner,
      dropWhile_append_marked, undecorated, hs]
  have hlast' : ∀ c ∈ (undecorated s).getLast?, isBlank c = false := by
    rw [undecorated, hs]
    exact fun c hc => hlast c (mem_getLast?_of_dropWhile hc)
  rw [bare, hundecorated, trim_append_marked dress.metadata_fit hlast', unmarked_append_marked]
  rfl

/-- Build metadata are no part of a version. -/
theorem writes_append_marked {tag : Option (List Char)}
    (htag : ∀ t, tag = some t → IsTag IsMetadata t) (hs : tag.isSome → '+' ∉ s) :
    Writes (s ++ marked '+' tag) v ↔ Writes s v := by
  cases tag with
  | none => rw [marked, List.append_nil]
  | some t =>
    constructor
    · rintro ⟨p, hp, htext, rfl⟩
      have hcut := hp.cut_text
      rw [← htext, cut_marked (hs rfl)] at hcut
      obtain ⟨rfl, -⟩ := Prod.mk.inj hcut
      exact ⟨{ p with build := none }, hp.core, (List.append_nil _).symm, rfl⟩
    · rintro ⟨p, hp, rfl, rfl⟩
      have hnone : p.build = none := by
        cases hbuild : p.build with
        | none => rfl
        | some b =>
          refine absurd ?_ (hs rfl)
          rw [Parts.text, hbuild]
          exact List.mem_append_right _ List.mem_cons_self
      refine ⟨{ p with build := some t }, ⟨hp.numerals, hp.prerelease, htag⟩, ?_, rfl⟩
      rw [Parts.text, hnone, marked, List.append_nil]
      rfl

theorem ofBuild?_on (dress : Dress) {plain : String} (hplain : trim plain.toList = plain.toList)
    (hplus : dress.metadata.isSome → '+' ∉ plain.toList) :
    ofBuild? (String.ofList (dress.on plain.toList)) = ofBuild? plain := by
  have hbare : dress.metadata.isSome → '+' ∉ bare plain.toList :=
    fun hsome hmem => hplus hsome (bare_subset _ hmem)
  refine Option.ext fun v => ?_
  rw [ofBuild?_eq_some_iff, ofBuild?_eq_some_iff, String.toList_ofList, bare_on dress hplain]
  exact writes_append_marked dress.metadata_fit hbare

/-- What comes after a version that reaches a release reaches it, too. -/
theorem Reaches.of_precedes (h : v.Reaches w) (hlater : v.Precedes v') : v'.Reaches w := by
  rcases h with hbeyond | ⟨hsame, hrelease⟩
  · rcases hlater with hless | ⟨hequal, -⟩
    · exact .inl (List.lt_trans hbeyond hless)
    · exact .inl (hequal ▸ hbeyond)
  · rcases hlater with hless | ⟨-, hprerelease⟩
    · exact .inl (hsame ▸ hless)
    · rw [hrelease] at hprerelease
      cases hprerelease

end Version

open Version Text

/-- What the gate makes of a build identifier. -/
structure Gated (build : String) : Prop where
  version_iff (v : Version) :
    (ofValue (.str build)).outcome = .ok (some v) ↔ Writes (bare build.toList) v
  none_iff : (ofValue (.str build)).outcome = .ok none ↔ ∀ v, ¬ Writes (bare build.toList) v
  /-- The version is read again from the text that it keeps. -/
  reread (v : Version) : Writes (bare build.toList) v → parse? v.text = some v
  answer (v : Version) : Writes (bare build.toList) v →
    Legible v.numbers firstStructured.numbers →
      (supportsStructuredWrite (.str build)).outcome = .ok (decide (v.Reaches firstStructured))
  unwritten : (∀ v, ¬ Writes (bare build.toList) v) →
    (supportsStructuredWrite (.str build)).outcome = .ok false
  /-- Blanks, decoration and build metadata do not count. -/
  dressed (dress : Dress) : trim build.toList = build.toList →
    (dress.metadata.isSome → '+' ∉ build.toList) →
      let whole := Value.str (String.ofList (dress.on build.toList))
      (ofValue whole).outcome = (ofValue (.str build)).outcome ∧
        (supportsStructuredWrite whole).outcome = (supportsStructuredWrite (.str build)).outcome
  /-- What one version takes, every later one takes. -/
  later (next : String) (v v' : Version) :
    (supportsStructuredWrite (.str build)).outcome = .ok true →
    (ofValue (.str build)).outcome = .ok (some v) →
    (ofValue (.str next)).outcome = .ok (some v') →
    v.Precedes v' → Legible v'.numbers firstStructured.numbers →
      (supportsStructuredWrite (.str next)).outcome = .ok true

/-- Every build identifier gets the answer that its version asks for; one that is missing or empty
has none and takes no structured writes. -/
theorem firmware_gate (build : String) : Gated build ∧
    ∀ missing ∈ [Value.null, .str ""], (ofValue missing).outcome = .ok none ∧
      (supportsStructuredWrite missing).outcome = .ok false := by
  have hversion (b : String) (v : Version) :
      (ofValue (.str b)).outcome = .ok (some v) ↔ Writes (bare b.toList) v := by
    rw [outcome_ofValue_str, Except.ok.injEq, ofBuild?_eq_some_iff]
  refine ⟨⟨hversion build, ?_, ?_, ?_, ?_, ?_, ?_⟩, ?_⟩
  · rw [outcome_ofValue_str, Except.ok.injEq, ofBuild?_eq_none_iff]
  · rintro _ ⟨p, hp, -, rfl⟩
    exact hp.parse?_coreText
  · exact fun v hv hlegible => (supportsStructuredWrite_eq_ok hv).mpr ⟨hlegible, rfl⟩
  · exact supportsStructuredWrite_of_unwritten
  · intro dress hbuild hplus
    have hsame := ofBuild?_on dress hbuild hplus
    dsimp only
    rw [outcome_ofValue_str, outcome_ofValue_str, outcome_supportsStructuredWrite,
      outcome_supportsStructuredWrite, hsame]
    exact ⟨rfl, rfl⟩
  · intro next v v' htrue hv hv' hprecedes hlegible
    obtain ⟨-, hreaches⟩ := (supportsStructuredWrite_eq_ok ((hversion build v).mp hv)).mp htrue
    have hreaches' := (of_decide_eq_true hreaches.symm).of_precedes hprecedes
    refine (supportsStructuredWrite_eq_ok ((hversion next v').mp hv')).mpr ⟨hlegible, ?_⟩
    exact (decide_eq_true hreaches').symm
  · intro missing hmissing
    simp only [List.mem_cons, List.not_mem_nil, or_false] at hmissing
    rcases hmissing with rfl | rfl
    · exact ⟨rfl, rfl⟩
    · exact ⟨rfl, rfl⟩

/-- A prerelease behind the first such version, with decoration in front and build metadata that
hold dots and dashes. -/
theorem firmware_gate_decorated :
    let build := "=v1.10.0-rc.1+b-5.0"
    let v : Version := ⟨1, 10, 0, some "rc.1".toList, "1.10.0-rc.1".toList⟩
    (ofValue (.str build)).outcome = .ok (some v) ∧
      (supportsStructuredWrite (.str build)).outcome = .ok true := by
  intro build v
  have hgate := (firmware_gate build).1
  have hread : ofBuild? build = some v := by decide +kernel
  have hwrites := ofBuild?_eq_some_iff.mp hread
  have hlegible : Legible v.numbers firstStructured.numbers :=
    ⟨by decide, fun _ => ⟨by decide, fun h => absurd h (by decide)⟩⟩
  have hreaches : decide (v.Reaches firstStructured) = true := by decide
  exact ⟨(hgate.version_iff v).mpr hwrites, hreaches ▸ hgate.answer v hwrites hlegible⟩

/-- A line break behind the decoration hides a mark from it, but not from the scan: the text without
blanks and decoration is no version, yet one is read from it. -/
theorem firmware_gate_hidden_mark :
    let build := "=\nv1.9.0"
    (∀ v, ¬ Writes (undecorated build.toList) v) ∧
      (ofValue (.str build)).outcome = .ok (some firstStructured) ∧
      (supportsStructuredWrite (.str build)).outcome = .ok true := by
  intro build
  have hread : ofBuild? build = some firstStructured := by decide +kernel
  refine ⟨?_, ?_, ?_⟩
  · rintro v ⟨p, hp, htext, -⟩
    obtain ⟨c, rest, hcons, hdigit⟩ := hp.exists_text_eq_cons
    have hplain : undecorated build.toList = '\n' :: "v1.9.0".toList := by decide +kernel
    rw [hcons, hplain] at htext
    obtain rfl := (List.cons.inj htext).1
    exact absurd hdigit (by decide +kernel)
  · rw [outcome_ofValue_str, hread]
  · rw [outcome_supportsStructuredWrite, hread]
    rfl

end Commissioning

import Commissioning.Firmware.Version
import Commissioning.Proofs.Firmware.Grammar
import Commissioning.Proofs.Value.Showable
import Mathlib.Tactic.Ring

/-!
The gate that chooses the form of a write by the firmware. A build identifier of three numbers is
taken apart into them; the gate compares them one by one with those of the first version that takes
structured writes, and gives no answer where one is too long to be read:

    major ──┬─ too long ──▶ no answer
            ├─ differs ───▶ answer
            └─ the same ──▶ minor ── … ──▶ patch
-/
namespace Commissioning

namespace Version
open Text

/-! ### Plain identifiers -/

/-- Three numbers with dots between them. -/
def plainText (a b c : List Char) : List Char := a ++ '.' :: (b ++ '.' :: c)

variable {a b c : List Char}

/-- A build identifier of three numbers is their version. -/
theorem ofBuild?_plainText (ha : isNumber a) (hb : isNumber b) (hc : isNumber c) :
    ofBuild? (String.ofList (plainText a b c)) = some {
      major := digitsValue a
      minor := digitsValue b
      patch := digitsValue c
      prerelease := none
      text := plainText a b c } := by
  let p : Parts := ⟨a, b, c, none, none⟩
  have hp : p.Fit := by
    refine ⟨?_, fun _ h => (Option.some_ne_none _ h.symm).elim,
      fun _ h => (Option.some_ne_none _ h.symm).elim⟩
    simp only [List.forall_mem_cons]
    exact ⟨isNumber_iff.mp ha, isNumber_iff.mp hb, isNumber_iff.mp hc, List.forall_mem_nil _⟩
  have hcore : p.coreText = plainText a b c := by
    simp [p, plainText, Parts.coreText, Parts.numbersText, marked, List.intercalate]
  have htext : p.text = plainText a b c := by rw [Parts.text, hcore]; exact List.append_nil _
  rw [ofBuild?, String.toList_ofList, ← htext, hp.undecorated_text, hp.parse?_text, htext, ← hcore]
  rfl

/-! ### The gate -/

theorem comesAfter_error {ns ms : List Nat} {e : Mismatch} (h : comesAfter ns ms = .error e) :
    ∃ n ∈ ns, Number.digitLimit < (Nat.toDigits 10 n).length ∧
      e = .tooManyDigits (Nat.toDigits 10 n).length := by
  induction ns generalizing ms with
  | nil => cases h
  | cons n ns ih =>
    cases ms with
    | nil => cases h
    | cons m ms =>
      rw [comesAfter, readNumber] at h
      by_cases hlong : Number.digitLimit < (Nat.toDigits 10 n).length
      · rw [if_pos hlong] at h
        cases h
        exact ⟨n, List.mem_cons_self, hlong, rfl⟩
      · rw [if_neg hlong] at h
        change (if n = m then comesAfter ns ms else .ok (decide (m < n))) = .error e at h
        split at h
        · obtain ⟨n', hn', hfound⟩ := ih h
          exact ⟨n', List.mem_cons_of_mem n hn', hfound⟩
        · cases h

theorem exists_ofValue (build : Value) : ∃ version, (ofValue build).outcome = .ok version := by
  unfold ofValue
  split
  · exact ⟨none, rfl⟩
  · split
    · exact ⟨_, rfl⟩
    · exact ⟨none, rfl⟩

end Version

/-- The gate gives no answer only for a version with a number that is too long to be read. -/
theorem supportsStructuredWrite_error {build : Value} {e : Fault}
    (h : (supportsStructuredWrite build).outcome = .error e) :
    ∃ v n, (Version.ofValue build).outcome = .ok (some v) ∧ n ∈ v.numbers ∧
      Number.digitLimit < (Nat.toDigits 10 n).length ∧
      e = .mismatch (.tooManyDigits (Nat.toDigits 10 n).length) := by
  obtain ⟨version, hversion⟩ := Version.exists_ofValue build
  rw [supportsStructuredWrite, Logged.outcome_bind, hversion] at h
  cases version with
  | none => cases h
  | some v =>
    have htakes : ofMismatch v.takesStructured = .error e := h
    unfold Version.takesStructured at htakes
    split at htakes
    · cases htakes
    · cases hcompare : Version.comesAfter v.numbers Version.firstStructured.numbers with
      | ok answer =>
        rw [hcompare] at htakes
        cases htakes
      | error mismatch =>
        rw [hcompare] at htakes
        cases htakes
        obtain ⟨n, hn, hlong, rfl⟩ := Version.comesAfter_error hcompare
        exact ⟨v, n, hversion, hn, hlong, rfl⟩

/-! ### A number that is too long -/

namespace Version
open Text

/-- One and zeros behind it. -/
def powerDigits (k : Nat) : List Char := '1' :: List.replicate k '0'

theorem isNumber_powerDigits (k : Nat) : isNumber (powerDigits k) := by
  have hzeros : (List.replicate k '0').all isDigit := by
    rw [List.all_eq_true]
    intro c hc
    obtain rfl := List.eq_of_mem_replicate hc
    decide +kernel
  rw [powerDigits, isNumber, hzeros]
  · rfl
  · exact fun hone _ => absurd hone (by decide)

theorem digitsValue_powerDigits (k : Nat) : digitsValue (powerDigits k) = 10 ^ k := by
  have hone : 10 * 0 + (digitValue? '1').getD 0 = 1 := by decide +kernel
  have hzero : (digitValue? '0').getD 0 = 0 := by decide +kernel
  have hzeros (m : Nat) : (List.replicate k '0').foldl
      (fun n c => 10 * n + (digitValue? c).getD 0) m = 10 ^ k * m := by
    induction k generalizing m with
    | zero => simp
    | succ k ih =>
      rw [List.replicate_succ, List.foldl_cons, hzero, ih]
      ring
  rw [digitsValue, powerDigits, List.foldl_cons, hone, hzeros, Nat.mul_one]

/-- The build identifier of a version that has a power of ten as its first number. -/
def powerBuild (k : Nat) : Value := .str (String.ofList (plainText (powerDigits k) ['0'] ['0']))

theorem isTruthy_powerBuild (k : Nat) : (powerBuild k).isTruthy := by
  simp [powerBuild, Value.isTruthy, plainText, powerDigits]

theorem ofValue_powerBuild (k : Nat) : (ofValue (powerBuild k)).outcome = .ok (some {
    major := 10 ^ k
    minor := 0
    patch := 0
    prerelease := none
    text := plainText (powerDigits k) ['0'] ['0'] }) := by
  have hversion := ofBuild?_plainText (isNumber_powerDigits k) (b := ['0']) rfl (c := ['0']) rfl
  rw [digitsValue_powerDigits] at hversion
  have htext : (powerBuild k).toText = String.ofList (plainText (powerDigits k) ['0'] ['0']) := rfl
  rw [ofValue, isTruthy_powerBuild, htext, hversion]
  rfl

end Version

/-- A first number beyond the limit leaves the gate without an answer. -/
theorem supportsStructuredWrite_powerBuild {k : Nat} (hk : Number.digitLimit ≤ k) :
    (supportsStructuredWrite (Version.powerBuild k)).outcome =
      .error (.mismatch (.tooManyDigits (k + 1))) := by
  have htext : Version.plainText (Version.powerDigits k) ['0'] ['0'] ≠
      Version.firstStructured.text := by
    intro h
    have hlength := congrArg List.length h
    have hlimit : Number.digitLimit = 4300 := rfl
    simp only [Version.plainText, Version.powerDigits, Version.firstStructured, List.length_append,
      List.length_cons, List.length_replicate, List.length_nil] at hlength
    omega
  have hread : Version.readNumber (10 ^ k) = .error (.tooManyDigits (k + 1)) := by
    rw [Version.readNumber, Number.length_toDigits_power]
    exact if_pos (by omega)
  rw [supportsStructuredWrite, Logged.outcome_bind, Version.ofValue_powerBuild]
  change ofMismatch (Version.takesStructured _) = _
  rw [Version.takesStructured, if_neg htext, Version.numbers, Version.numbers, Version.comesAfter,
    hread]
  rfl

end Commissioning

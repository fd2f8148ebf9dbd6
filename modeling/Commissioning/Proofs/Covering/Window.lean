import Commissioning.Proofs.Covering.Exchanges

/-!
The window in which the calibration bit is set. Every exchange is judged by the exchanges before it,
so what holds of each of them holds wherever a run breaks off. Before the window a history is `Low`,
in it `High`; each of the two makes the exchanges that belong there safe and is kept by them.

    settle  base  prime  reset │ enable  learn …  overrides │ finalize
    ───────── bit clear ───────┼──────── bit set ───────────┼─ bit clear
-/
namespace Commissioning

/-- The mode that a request writes. -/
def Request.writtenMode? : Request → Option Int
  | .write .windowCovering values _ => (values.get? Attribute.coveringMode).bind Value.asIndex?
  | _ => none

namespace Exchange

/-- The mode that the device has told when it was asked for nothing else. -/
def foundMode? (x : Exchange) : Option Int :=
  match x.request, x.answer? with
  | .read .windowCovering names _, some (.ok values) =>
    if names = [Attribute.coveringMode] then (Covering.modeIn values).toOption else none
  | _, _ => none

/-- The mode that an exchange writes or finds. -/
def mode? (x : Exchange) : Option Int := x.request.writtenMode?.or x.foundMode?

/-- Whether an exchange leaves the calibration bit alone or clears it. -/
def KeepsClear (x : Exchange) : Prop :=
  ∀ n, x.request.writtenMode? = some n → n.testBit 1 = false

/-- Whether an exchange sets the motor in motion or stops it. -/
def IsCommand (x : Exchange) : Prop := ∃ cluster name, x.request = .command cluster name

/-- Whether an exchange has told that the motor stands still. -/
def FoundStopped (x : Exchange) : Prop :=
  x.request = Covering.statusRead ∧ ∃ values, x.answer? = some (.ok values) ∧
    (values.get Attribute.operationalStatus).equalsInt Covering.motorStopped

end Exchange

namespace Covering
open Attribute Procedure

/-- The last mode that has been written or found. -/
def lastMode (h : History) : Option Int := (h.filterMap fun e => e.2.mode?).getLast?

/-- The last mode has no calibration bit. -/
def BitClear (h : History) : Prop := ∃ n, lastMode h = some n ∧ n.testBit 1 = false

/-- The last mode has the calibration bit. -/
def BitSet (h : History) : Prop := ∃ n, lastMode h = some n ∧ n.testBit 1 = true

/-- The wait of the first movement has found that the motor stands still. -/
def Primed (h : History) : Prop := ∃ x, (Phase.prime, x) ∈ h ∧ x.FoundStopped

/-- A command has been sent. -/
def Moved (h : History) : Prop := ∃ e ∈ h, e.2.IsCommand

/-- Limits and steps have been forgotten. -/
def LimitsReset (h : History) : Prop := ∃ x, (Phase.reset, x) ∈ h ∧ x.Succeeded

/-- What has to hold when a request is sent, given all that was exchanged before. -/
structure Safe (calibrate : Bool) (before : History) (p : Phase) (x : Exchange) : Prop where
  /-- The bit is set by one request at most, in a calibration, after the motor has stopped and the
  limits have been forgotten. -/
  setting : ∀ n, x.request.writtenMode? = some n → n.testBit 1 = true →
    p = .enable ∧ calibrate = true ∧ Primed before ∧ LimitsReset before ∧
      ∀ e ∈ before, e.2.KeepsClear
  firstCommand : x.IsCommand → ¬ Moved before → BitClear before
  base : p = .base → BitClear before
  reset : p = .reset → BitClear before
  overrides : p = .overrides → if calibrate then BitSet before else BitClear before
  /-- After the bit has been set, one request at most writes the mode, and it clears the bit. -/
  clearing : ∀ n, x.request.writtenMode? = some n → (∃ y, (Phase.enable, y) ∈ before) →
    p = .finalize ∧ n.testBit 1 = false ∧ ∀ e ∈ before, e.1 ≠ .finalize

/-- Every exchange is safe after those before it. -/
def Guarded (calibrate : Bool) : History → History → Prop
  | _, [] => True
  | before, e :: rest => Safe calibrate before e.1 e.2 ∧ Guarded calibrate (before ++ [e]) rest

variable {calibrate : Bool} {h : History} {p : Phase} {x : Exchange} {mode : Int}

theorem guarded_append {m₁ m₂ : History} : Guarded calibrate h (m₁ ++ m₂) ↔
    Guarded calibrate h m₁ ∧ Guarded calibrate (h ++ m₁) m₂ := by
  induction m₁ generalizing h with
  | nil => simp [Guarded]
  | cons e m₁ ih => simp [Guarded, ih, and_assoc]

theorem append_mark_cons (h : History) (p : Phase) (x : Exchange) (t : List Exchange) :
    h ++ mark p (x :: t) = (h ++ [(p, x)]) ++ mark p t := by
  simp [mark]

/-- A property of histories that every exchange of a phase keeps, and that makes it safe. -/
theorem guarded_of_invariant {t : List Exchange} (I : History → Prop) (hI : I h)
    (hstep : ∀ before, I before → ∀ x ∈ t, Safe calibrate before p x ∧ I (before ++ [(p, x)])) :
    Guarded calibrate h (mark p t) ∧ I (h ++ mark p t) := by
  induction t generalizing h with
  | nil => exact ⟨trivial, by simpa [mark] using hI⟩
  | cons x t ih =>
    obtain ⟨hx, ht⟩ := List.forall_mem_cons.mp (hstep h hI)
    have hrest := ih hx.2 fun before hb y hy => (hstep before hb) y (List.mem_cons_of_mem x hy)
    refine ⟨⟨hx.1, hrest.1⟩, ?_⟩
    rw [append_mark_cons]
    exact hrest.2

theorem Moved.append {m : History} (hm : Moved h) : Moved (h ++ m) := by
  obtain ⟨e, he, hc⟩ := hm
  exact ⟨e, List.mem_append_left m he, hc⟩

theorem Primed.append {m : History} (hp : Primed h) : Primed (h ++ m) := by
  obtain ⟨x, hx, hs⟩ := hp
  exact ⟨x, List.mem_append_left m hx, hs⟩

/-! ### The last mode -/

theorem lastMode_quiet (hx : x.mode? = none) : lastMode (h ++ [(p, x)]) = lastMode h := by
  simp [lastMode, hx]

theorem lastMode_told {n : Int} (hx : x.mode? = some n) : lastMode (h ++ [(p, x)]) = some n := by
  simp [lastMode, hx]

theorem writtenMode?_quiet (hx : x.mode? = none) : x.request.writtenMode? = none := by
  rw [Exchange.mode?, Option.or_eq_none_iff] at hx
  exact hx.1

theorem writtenMode?_modeWrite (n : Int) : (modeWrite n).writtenMode? = some n := rfl

/-- Writing another attribute says nothing about the mode. -/
theorem mode?_attributeWrite {key : String} {v : Value} {manufacturer : Option Int}
    (hk : key ≠ coveringMode) (hx : x.request = attributeWrite key v manufacturer) :
    x.mode? = none := by
  have hne : (coveringMode == key) = false := beq_false_of_ne (Ne.symm hk)
  simp [Exchange.mode?, Exchange.foundMode?, hx, attributeWrite, Request.writtenMode?,
    Entries.get?, List.lookup_cons, hne]

theorem mode?_statusRead (hx : x.request = statusRead) : x.mode? = none := by
  have hne : operationalStatus ≠ coveringMode := by decide
  simp only [Exchange.mode?, Exchange.foundMode?, hx, statusRead, Request.writtenMode?]
  cases x.answer? with
  | none => rfl
  | some answer => cases answer <;> simp [hne]

/-- A phase that moves the motor, resets the limits or writes overrides leaves the mode alone. -/
theorem mode?_quiet (hp : p.moves ∨ p = .reset ∨ p = .overrides) (hx : p.Asks x.request) :
    x.mode? = none := by
  obtain ⟨request, sent, reply⟩ := x
  cases hx with
  | override key v hk =>
    refine mode?_attributeWrite (x := ⟨_, sent, reply⟩) ?_ rfl
    rintro rfl
    revert hk
    decide
  | drive => rfl
  | poll => exact mode?_statusRead rfl
  | reset => rfl
  | _ => simp [Phase.moves] at hp

theorem keepsClear_of_quiet (hx : x.mode? = none) : x.KeepsClear := by
  intro n hn
  rw [writtenMode?_quiet hx] at hn
  cases hn

theorem keepsClear_of_clearBit {n : Int} (hx : x.request = modeWrite (clearBit n)) :
    x.KeepsClear := by
  rintro m hm
  rw [hx, writtenMode?_modeWrite] at hm
  cases hm
  exact testBit_clearBit n

theorem keepsClear_of_asks (hp : p ≠ .enable) (hx : p.Asks x.request) : x.KeepsClear := by
  by_cases hquiet : p.moves ∨ p = .reset ∨ p = .overrides
  · exact keepsClear_of_quiet (mode?_quiet hquiet hx)
  · generalize hq : x.request = q at hx
    cases hx with
    | findMode =>
      intro n hn
      rw [hq] at hn
      cases hn
    | settleMode n | baseMode n | finalize n => exact keepsClear_of_clearBit hq
    | base key v hk hm => exact keepsClear_of_quiet (mode?_attributeWrite hm hq)
    | enable n => exact absurd rfl hp
    | drive | poll => exact absurd (.inl ‹_›) hquiet
    | reset | override => simp at hquiet

theorem not_isCommand_of_asks (hp : p.moves = false) (hx : p.Asks x.request) : ¬ x.IsCommand := by
  rintro ⟨cluster, name, hq⟩
  rw [hq] at hx
  cases hx with
  | drive _ hm => simp [hp] at hm

/-! ### Before the window and in it -/

/-- The bit has not been set. -/
structure Unset (h : History) : Prop where
  never : ∀ e ∈ h, e.2.KeepsClear
  early : ∀ e ∈ h, e.1 ≠ .enable ∧ e.1 ≠ .finalize

/-- The bit has not been set, and the mode is `mode`. -/
structure Low (h : History) (mode : Int) : Prop extends Unset h where
  last : lastMode h = some mode
  clear : mode.testBit 1 = false

/-- The bit has been set on top of `mode` and is not cleared yet. -/
structure High (h : History) (mode : Int) : Prop where
  last : lastMode h = some (setBit mode)
  moved : Moved h
  opened : ∀ e ∈ h, e.1 ≠ .finalize

namespace Unset

theorem nil : Unset [] := ⟨by simp, by simp⟩

/-- Before the window an exchange is safe unless it sets the bit. -/
theorem safe (hu : Unset h) (hx : x.KeepsClear) (hb : x.IsCommand ∨ p ≠ .settle → BitClear h)
    (hp : p = .overrides → calibrate = false) : Safe calibrate h p x where
  setting n hn hbit := by
    rw [hx n hn] at hbit
    cases hbit
  firstCommand hcmd _ := hb (.inl hcmd)
  base hpb := hb (.inr (by simp [hpb]))
  reset hpr := hb (.inr (by simp [hpr]))
  overrides hpo := by
    rw [hp hpo]
    exact hb (.inr (by simp [hpo]))
  clearing n _ hy := by
    obtain ⟨y, hy⟩ := hy
    exact absurd rfl (hu.early _ hy).1

theorem snoc (hu : Unset h) (hp : p ≠ .enable ∧ p ≠ .finalize) (hx : x.KeepsClear) :
    Unset (h ++ [(p, x)]) where
  never := by
    simpa [or_imp, forall_and, hx] using hu.never
  early := by
    simpa [or_imp, forall_and, hp] using hu.early

end Unset

namespace Low

theorem bitClear (hl : Low h mode) : BitClear h := ⟨mode, hl.last, hl.clear⟩

theorem told {n : Int} (hu : Unset h) (hp : p ≠ .enable ∧ p ≠ .finalize) (hx : x.KeepsClear)
    (hm : x.mode? = some n) (hn : n.testBit 1 = false) : Low (h ++ [(p, x)]) n where
  toUnset := hu.snoc hp hx
  last := lastMode_told hm
  clear := hn

theorem quiet (hl : Low h mode) (hp : p ≠ .enable ∧ p ≠ .finalize) (hx : x.mode? = none) :
    Low (h ++ [(p, x)]) mode where
  toUnset := hl.snoc hp (keepsClear_of_quiet hx)
  last := (lastMode_quiet hx).trans hl.last
  clear := hl.clear

end Low

namespace High

theorem bitSet (hh : High h mode) : BitSet h := ⟨setBit mode, hh.last, testBit_setBit mode⟩

/-- In the window an exchange is safe if it leaves the mode alone or closes the window. -/
theorem safe (hh : High h mode) (hp : p ≠ .base ∧ p ≠ .reset)
    (hc : p = .overrides → calibrate = true)
    (hx : ∀ n, x.request.writtenMode? = some n → p = .finalize ∧ n.testBit 1 = false) :
    Safe calibrate h p x where
  setting n hn hb := by
    rw [(hx n hn).2] at hb
    cases hb
  firstCommand _ hnone := absurd hh.moved hnone
  base hpb := absurd hpb hp.1
  reset hpr := absurd hpr hp.2
  overrides hpo := by
    rw [hc hpo]
    exact hh.bitSet
  clearing n hn _ := ⟨(hx n hn).1, (hx n hn).2, hh.opened⟩

theorem quiet (hh : High h mode) (hp : p ≠ .finalize) (hx : x.mode? = none) :
    High (h ++ [(p, x)]) mode where
  last := (lastMode_quiet hx).trans hh.last
  moved := hh.moved.append
  opened := by
    simpa [or_imp, forall_and, hp] using hh.opened

end High

end Covering

end Commissioning

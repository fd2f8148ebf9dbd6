import Commissioning.Proofs.Covering.Exchanges
import Commissioning.Proofs.Exchange.Bench

/-!
What a device keeps after a run. Several phases write the same attributes; the last of them decides.

                 settle   base    reset    enable   overrides         finalize
    mode         & ~2     asked            | 2                        & ~2
    limits, steps                 default           asked, converted
    type, status          asked
-/
namespace Commissioning.Covering
open Attribute Procedure

/-- Limits and steps as they are written before learning starts. -/
def resetEntries : Entries := resetValues.map fun (key, n) => (key, .int n)

/-- What a request asks for under an attribute by a duration. -/
def convertedFor? (given : Entries) (key : String) : Option Value :=
  conversions.findSome? fun c => if c.target = key then converted? given c else none

/-- The mode in the end: the one that is asked for, else the one that was there, without its
calibration bit. -/
def finalMode (given : Entries) (initial : Int) : Int :=
  Int.ldiff (((asked? given coveringMode).bind Value.asIndex?).getD initial) 2

/-- What a device keeps in the end, from what is asked for and what it kept. -/
def finalValue (given : Entries) (d : String → Option Value) (initial : Int) (key : String) :
    Option Value :=
  if key = coveringMode then some (.int (finalMode given initial))
  else if key ∈ baseAttributes then (asked? given key).or (d key)
  else if key ∈ overrideAttributes then
    (convertedFor? given key).or <| (asked? given key).or <|
      if (given.get calibrateKey).isTruthy then (resetEntries.get? key).or (d key) else d key
  else d key

/-- The attributes of a report. -/
def reportAttributes : List String := geometryAttributes ++ statusAttributes ++ vendorAttributes

variable {level : Level} {mode : Int} {now : Nat} {b : Bench}

/-! ### Waiting for the motor -/

/-- A motor that is found running in time stops before the questions run out. -/
theorem achieves_pollUntilStopped {text : String} {polls left : Nat} (hb : b.moved ≤ now)
    (hleft : travelLimit < now - b.moved + pollInterval * (left + 1)) :
    Achieves (pollUntilStopped text b.moved polls left) now b fun _ _ b' => b' = b := by
  induction left generalizing polls now with
  | zero =>
    refine achieves_bind (achieves_bind (achieves_pause fun asked hasked => ?_))
    refine achieves_bind (achieves_read fun later values hl htold => ?_)
    refine achieves_bind (achieves_clock (achieves_pure ?_))
    simp only
    split
    · exact achieves_bind (achieves_log (achieves_pause fun _ _ => rfl))
    · next hs =>
      have hin := htold.inTime rfl (eq_false_of_ne_true hs)
      omega
  | succ left ih =>
    refine achieves_bind (achieves_bind (achieves_pause fun asked hasked => ?_))
    refine achieves_bind (achieves_read fun later values hl htold => ?_)
    refine achieves_bind (achieves_clock (achieves_pure ?_))
    simp only
    split
    · exact achieves_bind (achieves_log (achieves_pause fun _ _ => rfl))
    · next hs =>
      have hin := htold.inTime rfl (eq_false_of_ne_true hs)
      have hmul : pollInterval * (left + 1 + 1) = pollInterval * (left + 1) + pollInterval :=
        Nat.mul_succ _ _
      rw [if_neg (by omega)]
      exact ih (by omega) (by omega)

theorem achieves_awaitStop {text : String} (hb : b.moved = now) :
    Achieves (awaitStop text) now b fun _ _ b' => b' = b := by
  subst hb
  refine achieves_bind (achieves_clock (achieves_pollUntilStopped (Nat.le_refl _) ?_))
  rw [Nat.sub_self]
  decide

/-- A movement changes no attribute. -/
theorem achieves_travel {name text : String} :
    Achieves (do drive name; awaitStop text) now b fun _ _ b' => b'.attributes = b.attributes := by
  refine achieves_bind (achieves_command fun later _ => ?_)
  refine (achieves_awaitStop (b := { b with moved := later }) rfl).mono ?_
  rintro _ _ b' rfl
  rfl

/-! ### Phases -/

theorem achieves_writeMode {n : Int} :
    Achieves (do writeMode n; pause settleTime) now b fun _ _ b' =>
      b'.attributes = Function.update b.attributes coveringMode (some (.int n)) :=
  achieves_bind (achieves_write fun _ _ => achieves_pause fun _ _ => rfl)

/-- Settling leaves the mode without its bit and all else as it is. -/
theorem achieves_settle {initial : Int} (hm : b.attributes coveringMode = some (.int initial)) :
    Achieves (settle level) now b fun mode _ b' => mode = clearBit initial ∧
      b'.attributes = Function.update b.attributes coveringMode (some (.int (clearBit initial))) := by
  rw [settle_eq]
  refine achieves_bind (achieves_read fun later values _ htold => ?_)
  have hfound : values.get coveringMode = .int initial := by
    rw [Entries.get, htold.kept coveringMode (by decide), if_pos (by simp), hm]
    rfl
  have hin : modeIn values = .ok initial := by
    rw [modeIn, hfound]
    by_cases h0 : initial = 0
    · simp [h0, Value.isTruthy]
    · simp [h0, Value.isTruthy, Value.toInteger]
  rw [hin, ofMismatch_ok, pure_bind]
  refine achieves_bind (achieves_note (achieves_bind ?_))
  unfold clearLeftover
  cases hb : hasBit initial with
  | true =>
    refine achieves_writeMode.mono fun _ _ b' hb' => ?_
    exact achieves_pure ⟨rfl, hb'⟩
  | false =>
    refine achieves_pure (achieves_pure ⟨rfl, ?_⟩)
    rw [clearBit_of_not_hasBit hb, ← hm, Function.update_eq_self]

/-- A base attribute as it is written. -/
def asWritten (e : String × Value) : String × Value :=
  if e.1 = coveringMode then (e.1, .int (clearBit (e.2.asIndex?.getD 0))) else e

/-- The base attributes are written one after the other, and the mode is followed. -/
theorem achieves_writeBase {base : Entries}
    (hbase : ∀ v, (coveringMode, v) ∈ base → ∃ n, v.asIndex? = some n)
    (hm : b.attributes coveringMode = some (.int mode)) :
    Achieves (writeBase level mode base) now b fun after _ b' =>
      b'.attributes = Entries.store b.attributes (base.map asWritten) ∧
        b'.attributes coveringMode = some (.int after) := by
  induction base generalizing mode now b with
  | nil => exact achieves_pure ⟨rfl, hm⟩
  | cons e base ih =>
    obtain ⟨key, v⟩ := e
    have hrest : ∀ w, (coveringMode, w) ∈ base → ∃ n, w.asIndex? = some n :=
      fun w hw => hbase w (List.mem_cons_of_mem _ hw)
    rw [writeBase_cons]
    by_cases hk : key = coveringMode
    · subst hk
      obtain ⟨n, hn⟩ := hbase v List.mem_cons_self
      have hafter : modeAfter mode coveringMode v = .ok (clearBit n) := by
        rw [modeAfter, if_pos rfl, modeOf, hn]
      have hwritten : asWritten (coveringMode, v) = (coveringMode, .int (clearBit n)) := by
        rw [asWritten, if_pos rfl, hn]
        rfl
      rw [hafter, ofMismatch_ok, pure_bind, List.map_cons, hwritten]
      refine achieves_bind (achieves_note (achieves_bind (achieves_write fun _ _ => ?_)))
      refine achieves_bind (achieves_pause fun _ _ => ?_)
      rw [if_pos rfl]
      have hself := Function.update_self coveringMode (some (.int (clearBit n))) b.attributes
      exact ih hrest hself
    · have hafter : modeAfter mode key v = .ok mode := if_neg hk
      have hwritten : asWritten (key, v) = (key, v) := if_neg hk
      rw [hafter, ofMismatch_ok, pure_bind, List.map_cons, hwritten]
      refine achieves_bind (achieves_note (achieves_bind (achieves_write fun _ _ => ?_)))
      refine achieves_bind (achieves_pause fun _ _ => ?_)
      rw [if_neg hk]
      exact ih hrest ((Function.update_of_ne (Ne.symm hk) _ _).trans hm)

theorem achieves_resetLimits : Achieves (resetLimits level) now b fun _ _ b' =>
    b'.attributes = Entries.store b.attributes resetEntries :=
  achieves_bind (achieves_note
    (achieves_bind (achieves_write fun _ _ => achieves_pause fun _ _ => rfl)))

theorem achieves_writeOverrides {overrides : Entries} :
    Achieves (writeOverrides level overrides) now b fun _ _ b' =>
      b'.attributes = Entries.store b.attributes overrides := by
  induction overrides generalizing now b with
  | nil => exact achieves_pure rfl
  | cons e overrides ih =>
    exact achieves_bind (achieves_note (achieves_bind (achieves_write fun _ _ => ih)))

/-! ### What the writes of a phase leave -/

/-- What is kept once the base attributes are written. -/
def afterBase (given : Entries) (d : String → Option Value) (initial : Int) (key : String) :
    Option Value :=
  if key = coveringMode then some (.int (finalMode given initial))
  else if key ∈ baseAttributes then (asked? given key).or (d key)
  else d key

variable {given : Entries} {o : Options} {d : String → Option Value} {initial : Int}

/-- Each attribute has at most one conversion. -/
theorem convertedFor?_target {c : Conversion} (hc : c ∈ conversions) :
    convertedFor? given c.target = converted? given c :=
  Entries.findSome?_of_nodup (converted? given) (by decide) hc

theorem clearBit_finalMode : clearBit (finalMode given initial) = finalMode given initial := by
  rw [finalMode, ← clearBit_eq_ldiff, clearBit_clearBit]

/-- What is written for a base attribute. -/
def writtenBase? (given : Entries) (key : String) : Option Value :=
  if key = coveringMode then
    ((asked? given coveringMode).bind Value.asIndex?).map fun n => .int (clearBit n)
  else asked? given key

theorem base_asWritten (ho : o.Of given) : o.base.map asWritten =
    baseAttributes.filterMap fun key => (writtenBase? given key).map (key, ·) := by
  rw [ho.base, List.map_filterMap]
  congr 1
  funext key
  rw [baseValue?, writtenBase?]
  by_cases hk : key = coveringMode
  · subst hk
    rw [if_pos rfl, if_pos rfl]
    cases hv : asked? given coveringMode with
    | none => rfl
    | some v =>
      obtain ⟨n, hn⟩ := asIndex?_of_asked hv
      simp [hn, asWritten, asIndex?_withoutBit hn, clearBit_clearBit]
  · rw [if_neg hk, if_neg hk]
    cases asked? given key with
    | none => rfl
    | some v => simp [asWritten, hk]

theorem store_base (ho : o.Of given) :
    Entries.store (Function.update d coveringMode (some (.int (clearBit initial))))
      (o.base.map asWritten) = afterBase given d initial := by
  funext key
  rw [base_asWritten ho, Entries.store_keys _ (by decide), afterBase, writtenBase?, finalMode]
  by_cases hk : key = coveringMode
  · subst hk
    rw [if_pos (by decide), if_pos rfl, if_pos rfl, Function.update_self]
    cases (asked? given coveringMode).bind Value.asIndex? with
    | none => simp [clearBit_eq_ldiff]
    | some n => simp [clearBit_eq_ldiff]
  · rw [if_neg hk, if_neg hk, Function.update_of_ne hk]

theorem store_overrides (ho : o.Of given) (key : String) : Entries.store d o.overrides key =
    if key ∈ overrideAttributes then (convertedFor? given key).or ((asked? given key).or (d key))
    else d key := by
  split
  · next hk =>
    rw [ho.overrides, Entries.store_append, Entries.store_filterMap _ _ (by decide),
      Entries.store_keys _ (by decide), if_pos hk]
    rfl
  · next hk =>
    refine Entries.store_of_notMem fun hkey => hk ?_
    obtain ⟨e, he, rfl⟩ := List.mem_map.mp hkey
    exact ho.override_keys e he

theorem override_notMem_base : ∀ key ∈ overrideAttributes, key ∉ baseAttributes := by decide

theorem mode_mem_base : coveringMode ∈ baseAttributes := by decide

theorem get?_resetEntries {key : String} (hk : key ∉ overrideAttributes) :
    resetEntries.get? key = none := by
  refine Entries.get?_eq_none fun h => hk ?_
  have hall : ∀ k ∈ resetEntries.map Prod.fst, k ∈ overrideAttributes := by decide
  exact hall key h

/-- Without a calibration the overrides come right after the base attributes. -/
theorem store_plain (ho : o.Of given) (hc : o.calibrate = false) :
    Entries.store (afterBase given d initial) o.overrides = finalValue given d initial := by
  funext key
  rw [ho.calibrate] at hc
  rw [store_overrides ho, finalValue, hc, afterBase]
  by_cases hk : key ∈ overrideAttributes
  · have hb := override_notMem_base key hk
    have hm : key ≠ coveringMode := fun h => hb (h ▸ mode_mem_base)
    simp [hk, hb, hm]
  · simp [hk]

/-- With a calibration the reset and the overrides come between two writes of the mode. -/
theorem store_calibrating (ho : o.Of given) (hc : o.calibrate = true) {n : Int} :
    Function.update (Entries.store (Function.update
      (Entries.store (afterBase given d initial) resetEntries) coveringMode (some (.int n)))
      o.overrides) coveringMode (some (.int (finalMode given initial))) =
    finalValue given d initial := by
  funext key
  rw [ho.calibrate] at hc
  rw [finalValue, hc]
  by_cases hm : key = coveringMode
  · rw [if_pos hm, hm, Function.update_self]
  · rw [if_neg hm, Function.update_of_ne hm, store_overrides ho, Function.update_of_ne hm,
      Entries.store_eq_get? (by decide), afterBase, if_neg hm]
    by_cases hk : key ∈ overrideAttributes
    · simp [hk, override_notMem_base key hk]
    · simp [hk, get?_resetEntries hk]

/-! ### A whole run -/

theorem achieves_cons {p : Phase} {ps : List Phase} {Q : Int → Nat → Bench → Prop}
    (h : Achieves (p.procedure o level mode) now b fun after mid b' =>
      Achieves (performPhases o level ps after) mid b' Q) :
    Achieves (performPhases o level (p :: ps) mode) now b Q :=
  achieves_bind h

/-- Settling and the base attributes, which all runs have in common. -/
theorem achieves_begin (ho : o.Of given) (hshow : (Value.dict o.announcement).isShowable = true)
    (hm : b.attributes coveringMode = some (.int initial))
    {ps : List Phase} {Q : Int → Nat → Bench → Prop}
    (h : ∀ mid b', b'.attributes = afterBase given b.attributes initial →
      Achieves (performPhases o level ps (finalMode given initial)) mid b' Q) :
    Achieves (performPhases o level (.settle :: .base :: ps) 0) now b Q := by
  have hannounce : Achieves (announce o) now b fun _ _ b' => b' = b := by
    rw [announce_of_isShowable hshow]
    exact achieves_log rfl
  refine achieves_cons (achieves_bind (hannounce.mono ?_))
  rintro - mid b' rfl
  refine (achieves_settle hm).mono ?_
  rintro _ mid b₁ ⟨rfl, h₁⟩
  have hm₁ : b₁.attributes coveringMode = some (.int (clearBit initial)) := by
    rw [h₁, Function.update_self]
  refine achieves_cons ((achieves_writeBase (fun v => ho.base_mode) hm₁).mono ?_)
  rintro after mid b₂ ⟨h₂, hafter⟩
  rw [h₁, store_base ho] at h₂
  rw [h₂, afterBase, if_pos rfl] at hafter
  cases hafter
  exact h mid b₂ h₂

/-- A phase that moves the motor changes no attribute. -/
theorem achieves_moving {p : Phase} (hp : p.moves) :
    Achieves (p.procedure o level mode) now b fun after _ b' =>
      after = mode ∧ b'.attributes = b.attributes := by
  cases p with
  | prime =>
    refine achieves_bind (achieves_bind (achieves_note ?_))
    exact achieves_travel.mono fun _ _ _ h => achieves_pure ⟨rfl, h⟩
  | learnLower =>
    refine achieves_bind (achieves_bind (achieves_note ?_))
    refine achieves_bind (achieves_command fun _ _ => achieves_bind (achieves_pause fun _ _ => ?_))
    refine achieves_bind (achieves_command fun _ _ => achieves_bind (achieves_pause fun _ _ => ?_))
    exact achieves_travel.mono fun _ _ _ h => achieves_pure ⟨rfl, h⟩
  | learnRange =>
    refine achieves_bind (achieves_bind (achieves_note ?_))
    refine achieves_bind (achieves_command fun later _ => achieves_bind ?_)
    refine (achieves_awaitStop (b := { b with moved := later }) rfl).mono ?_
    rintro _ _ b' rfl
    exact achieves_travel.mono fun _ _ _ h => achieves_pure ⟨rfl, h⟩
  | _ => cases hp

/-- What is between the base attributes and the overrides of a calibration. -/
theorem achieves_learning {ps : List Phase} {Q : Int → Nat → Bench → Prop}
    (h : ∀ mid b', b'.attributes = Function.update (Entries.store b.attributes resetEntries)
      coveringMode (some (.int (setBit mode))) →
      Achieves (performPhases o level ps mode) mid b' Q) :
    Achieves (performPhases o level
      (.prime :: .reset :: .enable :: .learnLower :: .learnRange :: ps) mode) now b Q := by
  refine achieves_cons ((achieves_moving rfl).mono ?_)
  rintro after mid b₁ ⟨rfl, h₁⟩
  refine achieves_cons (achieves_bind (achieves_resetLimits.mono fun _ _ b₂ h₂ => ?_))
  refine achieves_pure (achieves_cons (achieves_bind (achieves_bind (achieves_note ?_))))
  refine achieves_writeMode.mono fun _ _ b₃ h₃ => achieves_pure ?_
  refine achieves_cons ((achieves_moving rfl).mono ?_)
  rintro after mid b₄ ⟨rfl, h₄⟩
  refine achieves_cons ((achieves_moving rfl).mono ?_)
  rintro after mid b₅ ⟨rfl, h₅⟩
  refine h mid b₅ ?_
  rw [h₅, h₄, h₃, h₂, h₁]

theorem achieves_phases (ho : o.Of given) (hshow : (Value.dict o.announcement).isShowable = true)
    (hm : b.attributes coveringMode = some (.int initial)) :
    Achieves (performPhases o level (Phase.all o.calibrate) 0) now b fun _ _ b' =>
      b'.attributes = finalValue given b.attributes initial := by
  cases hc : o.calibrate with
  | false =>
    refine achieves_begin ho hshow hm fun mid b₂ h₂ => ?_
    refine achieves_cons (achieves_bind (achieves_writeOverrides.mono fun _ _ b₃ h₃ => ?_))
    refine achieves_pure (achieves_pure ?_)
    rw [h₃, h₂, store_plain ho hc]
  | true =>
    refine achieves_begin ho hshow hm fun mid b₂ h₂ => achieves_learning fun mid b₃ h₃ => ?_
    refine achieves_cons (achieves_bind (achieves_writeOverrides.mono fun _ _ b₄ h₄ => ?_))
    refine achieves_pure (achieves_cons (achieves_bind ?_))
    refine achieves_bind (achieves_pause fun _ _ => achieves_bind (achieves_note ?_))
    refine achieves_writeMode.mono fun _ _ b₅ h₅ => achieves_pure (achieves_pure ?_)
    rw [h₅, h₄, h₃, h₂, clearBit_finalMode, store_calibrating ho hc]

/-- A report tells what is kept under its names. -/
theorem achieves_readReport : Achieves readReport now b fun report _ b' => b' = b ∧
    ∀ key, key ≠ operationalStatus →
      report.get? key = if key ∈ reportAttributes then b.attributes key else none := by
  refine achieves_bind (achieves_read fun _ geometry _ hg => ?_)
  refine achieves_bind (achieves_read fun _ status _ hs => ?_)
  refine achieves_bind (achieves_read fun _ vendor _ hv => achieves_pure ⟨rfl, fun key hk => ?_⟩)
  rw [Entries.get?_merge _ hv.distinct, Entries.get?_merge _ hs.distinct,
    Entries.get?_merge _ hg.distinct, hg.kept key hk, hs.kept key hk, hv.kept key hk]
  simp only [reportAttributes, List.mem_append, Entries.get?_nil]
  by_cases h₁ : key ∈ geometryAttributes <;> by_cases h₂ : key ∈ statusAttributes <;>
    by_cases h₃ : key ∈ vendorAttributes <;> cases b.attributes key <;> simp [h₁, h₂, h₃]

theorem achieves_conclude {start : Nat} : Achieves (conclude o start) now b fun report _ b' =>
    b' = b ∧ ∀ key, key ≠ operationalStatus →
      report.get? key = if key ∈ reportAttributes then b.attributes key else none := by
  refine achieves_bind (achieves_readReport.mono ?_)
  rintro report mid b' ⟨rfl, hreport⟩
  exact achieves_bind (achieves_clock (achieves_bind (achieves_log (achieves_pure ⟨rfl, hreport⟩))))

theorem achieves_ofLogged {α : Type} {l : Logged α} {a : α} {Q : α → Nat → Bench → Prop}
    (hl : l.outcome = .ok a) (h : Q a now b) : Achieves (.ofLogged l) now b Q := by
  intro t r finish b' hr hs _
  obtain ⟨rfl, rfl, rfl⟩ := runs_ofLogged.mp hr
  cases hs
  exact ⟨a, by rw [hl]; rfl, h⟩

/-- An attribute that a duration is given for keeps its steps in the end. -/
theorem finalValue_target (ho : o.Of given) {c : Conversion} (hc : c ∈ conversions)
    (hgiven : given.get c.source ≠ .null) : ∃ v, finalValue given d initial c.target = some v ∧
      RoundsHalfUp given c v := by
  obtain ⟨v, hv⟩ := Option.isSome_iff_exists.mp (ho.converted c hc hgiven)
  have hkey := target_mem c hc
  have hbase := override_notMem_base _ hkey
  have hmode : c.target ≠ coveringMode := fun h => hbase (h ▸ mode_mem_base)
  refine ⟨v, ?_, roundsHalfUp_of_converted hc hv⟩
  rw [finalValue, if_neg hmode, if_neg hbase, if_pos hkey, convertedFor?_target hc, hv]
  rfl

/-- A run on a device that keeps what is written returns a report, unless it is given up; then the
device keeps what is asked for, and the report tells it. The one run that returns none ends before
the first request, because its options cannot be shown. -/
theorem final_state {given : Value} {o : Options} {verbose : Bool} {now finish : Nat}
    {t : List Exchange} {r : Except Stop Entries} {b b' : Bench} {initial : Int}
    (ho : (validate given).outcome = .ok o)
    (hm : b.attributes coveringMode = some (.int initial))
    (hr : Runs (configureRaw given verbose) now t r finish) (hs : b.ServesAll t b')
    (hc : r ≠ .error .cancelled) :
    ∃ entries : Entries, given = .dict entries ∧
      (((Value.dict o.announcement).isShowable = true ∧ ∃ report, r = .ok report ∧
        (∀ key, b'.attributes key = finalValue entries b.attributes initial key) ∧
        (∀ c ∈ conversions, entries.get c.source ≠ .null →
          ∃ v, b'.attributes c.target = some v ∧ RoundsHalfUp entries c v) ∧
        ∀ key, key ≠ operationalStatus →
          report.get? key = if key ∈ reportAttributes then b'.attributes key else none) ∨
      (Value.dict o.announcement).isShowable = false ∧ t = [] ∧
        r = .error (.raised (.mismatch .unwritable)) ∧ b' = b) := by
  obtain ⟨entries, rfl, hof⟩ := validate_ok ho
  refine ⟨entries, rfl, ?_⟩
  cases hshow : (Value.dict o.announcement).isShowable with
  | false =>
    obtain ⟨rfl, rfl⟩ := runs_unannounced hshow (runs_checked ho hr)
    cases hs
    exact .inr ⟨rfl, rfl, rfl, rfl⟩
  | true =>
    have hrun : Achieves (configureRaw (.dict entries) verbose) now b fun report _ b' =>
        b'.attributes = finalValue entries b.attributes initial ∧
          ∀ key, key ≠ operationalStatus →
            report.get? key = if key ∈ reportAttributes then b'.attributes key else none := by
      refine achieves_bind (achieves_ofLogged ho ?_)
      rw [configure_eq]
      refine achieves_bind (achieves_clock ?_)
      refine achieves_bind ((achieves_phases hof hshow hm).mono fun _ _ b₁ h₁ => ?_)
      refine achieves_conclude.mono ?_
      rintro report _ b₂ ⟨rfl, hreport⟩
      exact ⟨h₁, hreport⟩
    obtain ⟨report, rfl, hkept, hreport⟩ := hrun t r finish b' hr hs hc
    refine .inl ⟨rfl, report, rfl, congrFun hkept, fun c hconv hgiven => ?_, hreport⟩
    rw [hkept]
    exact finalValue_target hof hconv hgiven

/-! ### There is a run -/

theorem servable_of_asks {p : Phase} {q : Request} (h : p.Asks q) : q.Servable := by
  cases h with
  | findMode => exact (by decide : [coveringMode].Nodup)
  | poll => exact (by decide : [operationalStatus].Nodup)
  | _ => trivial

theorem ReportRead.servable {q : Request} (h : ReportRead q) : q.Servable := by
  cases h <;> unfold Request.Servable <;> decide

/-- Any request can be run on any device. -/
theorem servable_configureRaw (given : Value) (verbose : Bool) :
    Sends Request.Servable (configureRaw given verbose) := by
  refine sends_ofLogged_bind fun o ho => ?_
  obtain ⟨entries, -, hof⟩ := validate_ok ho
  rw [configure_eq]
  refine sends_bind sends_clock fun start => ?_
  refine sends_bind (sends_performPhases hof _ 0 fun _ _ _ => servable_of_asks) fun _ => ?_
  exact (asks_conclude o start).mono fun _ => ReportRead.servable

/-- A request for a calibration with a mode whose calibration bit is set, and with steps. -/
def calibrationWithMode : Entries :=
  [(calibrateKey, .bool true), (coveringMode, .int 7), (totalSteps, .int 10)]

theorem validate_calibrationWithMode : (validate (.dict calibrationWithMode)).outcome = .ok
    { flag := .bool true, base := [(coveringMode, .int 5)], overrides := [(totalSteps, .int 10)] } := by
  rw [calibrationWithMode, validate_of_known (by decide)]
  rfl

/-- A device in the middle of a calibration. -/
def interrupted : Bench where
  attributes key := if key = coveringMode then some (.int 3)
    else if key = coveringType then some (.int 8) else none
  moved := 0

theorem final_state_interrupted : ∃ o t r finish b',
    (validate (.dict calibrationWithMode)).outcome = .ok o ∧
    interrupted.attributes coveringMode = some (.int 3) ∧
    Runs (configureRaw (.dict calibrationWithMode) false) 0 t r finish ∧
    interrupted.ServesAll t b' ∧ r ≠ .error .cancelled ∧ (∃ report, r = .ok report) ∧
    b'.attributes coveringMode = some (.int 5) ∧ b'.attributes totalSteps = some (.int 10) ∧
    b'.attributes totalSteps2 = some (.int 65535) ∧ b'.attributes coveringType = some (.int 8) := by
  obtain ⟨t, r, finish, b', hr, hs, hc⟩ :=
    exists_served (servable_configureRaw (.dict calibrationWithMode) false) 0 interrupted
  obtain ⟨entries, hgiven, hrun⟩ := final_state validate_calibrationWithMode rfl hr hs hc
  cases hgiven
  obtain ⟨-, report, hok, hkept, -, -⟩ | ⟨hshow, -⟩ := hrun
  case inr => cases hshow
  refine ⟨_, t, r, finish, b', validate_calibrationWithMode, rfl, hr, hs, hc, ⟨report, hok⟩, ?_⟩
  simp only [hkept]
  have hmode : Int.ldiff 7 2 = 5 := (clearBit_eq_ldiff 7).symm
  exact ⟨congrArg (fun n => some (Value.int n)) hmode, rfl, rfl, rfl⟩

end Commissioning.Covering

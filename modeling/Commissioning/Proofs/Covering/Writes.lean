import Commissioning.Proofs.Covering.CalibrationBit
import Commissioning.Proofs.Covering.FinalState

/-!
The writes of a run, phase by phase. The base attributes and the overrides are written one after the
other in the order of the options, so whatever breaks off a run, it has written the first of them.

    options   base [type, mode]       overrides [total steps, startup steps]
    run       write type, write mode  write total steps ✗
-/
namespace Commissioning.Covering
open Attribute Procedure
variable {o : Options} {level : Level} {mode : Int} {now finish : Nat} {t : List Exchange}

/-- The requests of a phase, in order. -/
def requestsOf (p : Phase) (m : History) : List Request :=
  (m.filter fun e => e.1 = p).map fun e => e.2.request

/-- The write of a base attribute. -/
def baseWrite (e : String × Value) : Request := attributeWrite e.1 e.2 none

/-- The write of an override. -/
def overrideWrite (e : String × Value) : Request := attributeWrite e.1 e.2 (some manufacturerCode)

/-! ### One phase -/

theorem asWritten_of_modeAfter {after : Int} {key : String} {v : Value}
    (h : modeAfter mode key v = .ok after) :
    asWritten (key, v) = (key, if key = coveringMode then .int after else v) := by
  unfold modeAfter at h
  split at h
  · next hk =>
    unfold modeOf at h
    split at h
    · next n hn =>
      cases h
      rw [asWritten, if_pos hk, if_pos hk, hn]
      rfl
    · cases h
  · next hk => rw [asWritten, if_neg hk, if_neg hk]

theorem writeBase_requests {base : Entries} {r : Except Stop Int}
    (h : Runs (writeBase level mode base) now t r finish) :
    t.map Exchange.request <+: (base.map asWritten).map baseWrite := by
  induction base generalizing mode now t with
  | nil =>
    obtain ⟨rfl, -, -⟩ := h
    exact List.nil_prefix
  | cons e base ih =>
    obtain ⟨key, v⟩ := e
    rw [writeBase_cons] at h
    cases hm : modeAfter mode key v with
    | error e =>
      rw [hm] at h
      obtain ⟨rfl, -, -⟩ := h
      exact List.nil_prefix
    | ok after =>
      rw [hm, ofMismatch_ok, pure_bind] at h
      have h' : Runs (do
          writeOne key (if key = coveringMode then .int after else v) none
          pause settleTime
          writeBase level after base) now t r finish := h
      rw [List.map_cons, List.map_cons, asWritten_of_modeAfter hm]
      rcases runs_request_bind h' with
        ⟨later, values, rest, -, rfl, h₁⟩ | ⟨-, rfl, -⟩ | ⟨_, -, rfl, -⟩
      · refine List.cons_prefix_cons.mpr ⟨rfl, ?_⟩
        rcases runs_pause_bind.mp h₁ with ⟨-, rfl, -⟩ | ⟨mid, -, h₂⟩
        · exact List.nil_prefix
        · exact ih h₂
      · exact List.cons_prefix_cons.mpr ⟨rfl, List.nil_prefix⟩
      · exact List.cons_prefix_cons.mpr ⟨rfl, List.nil_prefix⟩

theorem writeOverrides_requests {overrides : Entries} {r : Except Stop Unit}
    (h : Runs (writeOverrides level overrides) now t r finish) :
    t.map Exchange.request <+: overrides.map overrideWrite := by
  induction overrides generalizing now t with
  | nil =>
    obtain ⟨rfl, -, -⟩ := h
    exact List.nil_prefix
  | cons e overrides ih =>
    obtain ⟨key, v⟩ := e
    have h' : Runs (do
        writeOne key v (some manufacturerCode)
        writeOverrides level overrides) now t r finish := h
    rw [List.map_cons]
    rcases runs_request_bind h' with
      ⟨later, values, rest, -, rfl, h₁⟩ | ⟨-, rfl, -⟩ | ⟨_, -, rfl, -⟩
    · exact List.cons_prefix_cons.mpr ⟨rfl, ih h₁⟩
    · exact List.cons_prefix_cons.mpr ⟨rfl, List.nil_prefix⟩
    · exact List.cons_prefix_cons.mpr ⟨rfl, List.nil_prefix⟩

/-! ### A whole run -/

section
variable {ps : List Phase} {m : History} {r : Except Stop Int}

theorem phase_mem (h : RunsPhases o level ps mode now m r finish) : ∀ e ∈ m, e.1 ∈ ps := by
  induction ps generalizing mode now m with
  | nil =>
    obtain ⟨rfl, -, -⟩ := h
    simp
  | cons p ps ih =>
    have hmark (t : List Exchange) : ∀ e ∈ mark p t, e.1 ∈ p :: ps := by
      intro e he
      obtain ⟨x, -, rfl⟩ := List.mem_map.mp he
      exact List.mem_cons_self
    rcases h with ⟨after, t, rest, mid, -, h₂, rfl⟩ | ⟨stop, t, -, -, rfl⟩
    · exact List.forall_mem_append.mpr ⟨hmark t, fun e he => List.mem_cons_of_mem p (ih h₂ e he)⟩
    · exact hmark t

theorem requestsOf_append (p : Phase) (m m' : History) :
    requestsOf p (m ++ m') = requestsOf p m ++ requestsOf p m' := by
  simp [requestsOf]

theorem requestsOf_mark (p : Phase) (t : List Exchange) :
    requestsOf p (mark p t) = t.map Exchange.request := by
  have hall : (mark p t).filter (fun e => e.1 = p) = mark p t := by
    rw [List.filter_eq_self]
    intro e he
    obtain ⟨x, -, rfl⟩ := List.mem_map.mp he
    simp
  rw [requestsOf, hall, mark, List.map_map]
  rfl

theorem requestsOf_eq_nil {p : Phase} (h : ∀ e ∈ m, e.1 ≠ p) : requestsOf p m = [] := by
  simpa [requestsOf] using h

/-- What a phase asks for at most whenever it runs is what it asks for at most in a whole run. -/
theorem requestsOf_prefix {p : Phase} {requests : List Request}
    (hphase : ∀ {mode now t r finish}, Runs (p.procedure o level mode) now t r finish →
      t.map Exchange.request <+: requests)
    (hps : ps.Nodup) (h : RunsPhases o level ps mode now m r finish) :
    requestsOf p m <+: requests := by
  induction ps generalizing mode now m with
  | nil =>
    obtain ⟨rfl, -, -⟩ := h
    exact List.nil_prefix
  | cons q ps ih =>
    obtain ⟨hnot, hr⟩ := List.nodup_cons.mp hps
    have hother (t : List Exchange) (hq : q ≠ p) : requestsOf p (mark q t) = [] := by
      refine requestsOf_eq_nil fun e he => ?_
      obtain ⟨x, -, rfl⟩ := List.mem_map.mp he
      exact hq
    rcases h with ⟨after, t, rest, mid, h₁, h₂, rfl⟩ | ⟨stop, t, h₁, -, rfl⟩
    · rw [requestsOf_append]
      by_cases hq : q = p
      · -- the phase does not come again
        subst hq
        have hrest : requestsOf q rest = [] :=
          requestsOf_eq_nil fun e he heq => hnot (heq ▸ phase_mem h₂ e he)
        rw [requestsOf_mark, hrest, List.append_nil]
        exact hphase h₁
      · rw [hother t hq, List.nil_append]
        exact ih hr h₂
    · by_cases hq : q = p
      · subst hq
        rw [requestsOf_mark]
        exact hphase h₁
      · rw [hother t hq]
        exact List.nil_prefix

theorem all_nodup (calibrate : Bool) : (Phase.all calibrate).Nodup := by
  cases calibrate <;> decide

/-- The base attributes are written in their order, up to where the run breaks off. -/
theorem requestsOf_base (h : RunsPhases o level (Phase.all o.calibrate) mode now m r finish) :
    requestsOf .base m <+: (o.base.map asWritten).map baseWrite :=
  requestsOf_prefix writeBase_requests (all_nodup _) h

/-- So are the overrides. -/
theorem requestsOf_overrides (h : RunsPhases o level (Phase.all o.calibrate) mode now m r finish) :
    requestsOf .overrides m <+: o.overrides.map overrideWrite := by
  refine requestsOf_prefix (fun {_ _ t _ _} h₁ => ?_) (all_nodup _) h
  rcases runs_bind.mp h₁ with ⟨_, t', _, _, hw, ⟨rfl, -, -⟩, rfl⟩ | ⟨_, hw, -⟩
  · rw [List.append_nil]
    exact writeOverrides_requests hw
  · exact writeOverrides_requests hw

end

end Commissioning.Covering

import Commissioning.Proofs.Service.Opening

/-!
Exclusion of calls on one device. The device is found by the address that a text stands for, but the
lock goes by the text, so calls keep apart only if they spell the address in one way:

    "00:1f:ee:00:00:00:12:34"  ──▶ one lock ────┐
    "00:1f:ee:00:00:00:12: 34" ──▶ another one ─┴──▶ one device
-/
namespace Commissioning

namespace Session
variable {s : Session} {i : Nat} {t : Task} {j : Job} {o : Operation} {k : LockKey}
  {u v x y : String} {a : Address}

/-- Calls of an operation with one text as the address keep those with another one out. -/
structure Excludes (s : Session) (o : Operation) (u v : String) : Prop where
  /-- No two of them run at a time. -/
  apart : ∀ (i i' : Nat) (t t' : Task), i ≠ i' → s.tasks[i]? = some t → s.tasks[i']? = some t' →
    t.call.Names o u → t'.call.Names o v → ¬ (t.stage.IsRunning ∧ t'.stage.IsRunning)
  /-- While one runs, another one that is complete is refused as it starts. -/
  rejected : ∀ (i i' start : Nat) (t t' : Task) (j : Job), s.tasks[i]? = some t →
    s.tasks[i']? = some t' → t.call.Names o u → t'.call.Names o v → t.stage.IsRunning →
    t'.stage = .waiting start → (s.jobOf t').outcome = .ok j →
    ∃ e, e.category = .request ∧ s.EndsWith i' t' e

/-! ### One spelling -/

theorem Reachable.excludes_of_eq (h : s.Reachable) (hu : Spells u x a) (hv : Spells v x a) :
    s.Excludes o u v where
  apart i i' t t' hi ht ht' hn hn' := by
    rintro ⟨hrun, hrun'⟩
    have hk := (h.holds (k := ⟨o.name, x⟩) ht hn hu hrun).mpr rfl
    have hk' := (h.holds (k := ⟨o.name, x⟩) ht' hn' hv hrun').mpr rfl
    exact hi (h.locked.single i i' t t' _ ht ht' hk hk')
  rejected i i' start t t' j ht ht' hn hn' hrun hst hj := by
    have hk := (h.holds (k := ⟨o.name, x⟩) ht hn hu hrun).mpr rfl
    obtain ⟨hlock, -⟩ := Service.job_of_names hn' hv hj
    exact ⟨_, rfl, h.locked.refused ⟨ht', ⟨start, hst⟩, hj, hlock⟩ ⟨i, t, ht, hk⟩⟩

/-! ### Two spellings -/

/-- Two calls that spell the address of one device in two ways can run side by side. -/
theorem overlap (o : Operation) (hu : Spells u x a) (hv : Spells v y a) (hxy : x ≠ y) :
    ∃ (s : Session) (t t' : Task), s.Reachable ∧ s.tasks = [t, t'] ∧ t.call.Names o u ∧
      t'.call.Names o v ∧ t.stage.IsRunning ∧ t'.stage.IsRunning := by
  let s := (opening o a [u, v]).advance 0
  have hs : s.Reachable := (opening_reachable o a [u, v]).advance 0
  obtain ⟨st, htasks, hrun, hslow⟩ := opening_advance o hu [v]
  have ht : s.tasks[0]? = some { Task.ofCall 0 (o.call u) with stage := st } := by rw [htasks]; rfl
  have hstart : s.Starts 1 _ _ o ⟨o.name, y⟩ := opening_starts o hu hv []
  -- the second call finds only the lock of the other spelling held
  have hfree : ¬ s.HasHolder ⟨o.name, y⟩ := by
    rintro ⟨i, t', ht', hk⟩
    rw [htasks] at ht'
    match i, ht' with
    | 0, ht' =>
      cases ht'
      have hkey := (hs.holds ht (o.call_names u) hu hrun).mp hk
      exact hxy (congrArg LockKey.address hkey).symm
    | 1, ht' =>
      cases ht'
      exact hk
  obtain ⟨st', htasks', hrun', -⟩ := hs.runs_of_slow hstart hfree
    (proper_of_data (congrArg Prod.snd ((opening o a [u, v]).advance_host 0)) _) hslow o.purpose_opens
  rw [htasks] at htasks'
  exact ⟨s.advance 1, _, _, hs.advance 1, htasks', o.call_names u, o.call_names v, hrun, hrun'⟩

theorem not_excludes_of_ne (o : Operation) (hu : Spells u x a) (hv : Spells v y a) (hxy : x ≠ y) :
    ¬ ∀ s : Session, s.Reachable → s.Excludes o u v := by
  intro h
  obtain ⟨s, t, t', hs, htasks, hn, hn', hrun, hrun'⟩ := overlap o hu hv hxy
  have ht : s.tasks[0]? = some t := by rw [htasks]; rfl
  have ht' : s.tasks[1]? = some t' := by rw [htasks]; rfl
  exact (h s hs).apart 0 1 t t' Nat.zero_ne_one ht ht' hn hn' ⟨hrun, hrun'⟩

/-! ### Every pair of spellings -/

/-- Of all pairs of texts that name one device, exactly those that are normalized to one spelling
keep their calls apart in every session. -/
theorem excludes_iff (o : Operation) (hu : Spells u x a) (hv : Spells v y a) :
    (∀ s : Session, s.Reachable → s.Excludes o u v) ↔ x = y := by
  constructor
  · exact fun h => Classical.byContradiction fun hxy => not_excludes_of_ne o hu hv hxy h
  · rintro rfl s hs
    exact hs.excludes_of_eq hu hv

/-- Capitals and a blank before it do not change a spelling. -/
theorem excludes_capitals :
    Spells " 00:1F:EE:00:00:00:12:34" sampleText sampleAddress ∧
      ∀ s : Session, s.Reachable →
        s.Excludes .calibration " 00:1F:EE:00:00:00:12:34" sampleText := by
  have hcapitals : Spells " 00:1F:EE:00:00:00:12:34" sampleText sampleAddress :=
    .of_lower (by decide +kernel) (by decide) spells_sample.address
  exact ⟨hcapitals, (excludes_iff .calibration hcapitals spells_sample).mpr rfl⟩

/-- A blank inside does: two calibrations of one device run side by side. -/
theorem overlap_blank :
    (Spells sampleText sampleText sampleAddress ∧
      Spells "00:1f:ee:00:00:00:12: 34" "00:1f:ee:00:00:00:12: 34" sampleAddress) ∧
    ¬ ∀ s : Session, s.Reachable →
      s.Excludes .calibration sampleText "00:1f:ee:00:00:00:12: 34" := by
  have hblank : Spells "00:1f:ee:00:00:00:12: 34" "00:1f:ee:00:00:00:12: 34" sampleAddress :=
    .of_lower (by decide +kernel) (by decide) (by decide +kernel)
  exact ⟨⟨spells_sample, hblank⟩, not_excludes_of_ne .calibration spells_sample hblank (by decide)⟩

end Session

end Commissioning

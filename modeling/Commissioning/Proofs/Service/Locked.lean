import Commissioning.Proofs.Service.LockTable
import Commissioning.Proofs.Service.Reachable

/-!
Locks agree with tasks. A lock is held exactly as long as a job that needs it runs, and at most one
such job runs at a time. Whatever becomes of a task, its lock goes the same way; so every move of
every session keeps the agreement.

    waiting ── takes ──▶ running, lock held ── gives back ──▶ ended, lock free
-/
namespace Commissioning

/-- Whether a job needs the lock of a key. -/
def Job.Needs (j : Job) (k : LockKey) : Prop := ∃ o, j.lock? = some (o, k)

/-- Whether a stage holds the lock of a key: its job runs and needs it. -/
def Stage.Holds (st : Stage) (k : LockKey) : Prop :=
  match st with
  | .running j _ _ => j.Needs k
  | _ => False

namespace Session
variable {s : Session} {j : Job} {k : LockKey}

/-- Whether the lock of a key is held. -/
def Held (s : Session) (k : LockKey) : Prop := s.tables.lock? k = some .held

/-- Whether some task holds the lock of a key. -/
def HasHolder (s : Session) (k : LockKey) : Prop :=
  ∃ (i : Nat) (t : Task), s.tasks[i]? = some t ∧ t.stage.Holds k

/-- The locks agree with the tasks. -/
structure Locked (s : Session) : Prop where
  held : ∀ k, s.Held k ↔ s.HasHolder k
  single : ∀ (i i' : Nat) (t t' : Task) (k : LockKey), s.tasks[i]? = some t → s.tasks[i']? = some t' →
    t.stage.Holds k → t'.stage.Holds k → i = i'

/-! ### One operation -/

theorem held_setLock_held (h : (s.tables.lock? k).isSome) (k' : LockKey) :
    (s.setLock k .held).Held k' ↔ k' = k ∨ s.Held k' := by
  unfold Held setLock
  by_cases hk : k' = k
  · subst hk
    obtain ⟨l, hl⟩ := Option.isSome_iff_exists.mp h
    simp [LockTables.lock?_put_self, hl]
  · simp [LockTables.lock?_put_of_ne hk, hk]

theorem held_setLock_free (k' : LockKey) : (s.setLock k .free).Held k' ↔ s.Held k' ∧ k' ≠ k := by
  unfold Held setLock
  by_cases hk : k' = k
  · subst hk
    simp [LockTables.lock?_put_self]
  · simp [LockTables.lock?_put_of_ne hk, hk]

theorem held_release (k' : LockKey) : (s.release j).Held k' ↔ s.Held k' ∧ ¬ j.Needs k' := by
  unfold release Job.Needs
  split
  · next o key hlock =>
    rw [held_setLock_free, hlock]
    simp [eq_comm]
  · next hlock => simp [hlock]

/-- A job that has to wait runs on. -/
theorem settle_of_wake {began : Nat} {r : Activity Entries × Hub} (h : r.1.wake?.isSome) :
    s.settle j began r = (.running j began r.1, { s with hub := r.2 }) := by
  obtain ⟨activity, hub⟩ := r
  cases activity with
  | ended outcome => cases h
  | pausing wake rest => rfl
  | calling wake x next => rfl

/-- What settling does to a job and to the locks. -/
theorem settle_cases (s : Session) (j : Job) (began : Nat) (r : Activity Entries × Hub) :
    (∃ outcome, (s.settle j began r).1 = .ended r.2.now outcome ∧
      (s.settle j began r).2.tables = (s.release j).tables) ∨
    (r.1.wake?.isSome ∧ (s.settle j began r).1 = .running j began r.1 ∧
      (s.settle j began r).2.tables = s.tables) := by
  obtain ⟨activity, hub⟩ := r
  cases activity with
  | ended outcome =>
    refine .inl ⟨outcome, rfl, ?_⟩
    unfold settle release
    cases j.lock? <;> rfl
  | pausing wake rest => exact .inr ⟨rfl, rfl, rfl⟩
  | calling wake x next => exact .inr ⟨rfl, rfl, rfl⟩

/-- What a move does to the lock of a key, from a stage to the next one. -/
structure Transfers (s : Session) (st : Stage) (r : Stage × Session) (k : LockKey) : Prop where
  held : r.2.Held k ↔ r.1.Holds k ∨ s.Held k ∧ ¬ st.Holds k
  taken : r.1.Holds k → st.Holds k ∨ ¬ s.Held k

theorem held_of_tables {s' : Session} (h : s'.tables = s.tables) (k : LockKey) :
    s'.Held k ↔ s.Held k := by
  unfold Held
  rw [h]

/-- Going on keeps the lock until the job ends. -/
theorem settle_transfers {began : Nat} {activity : Activity Entries}
    {r : Activity Entries × Hub} (hj : j.Needs k → s.Held k) :
    Transfers s (.running j began activity) (s.settle j began r) k := by
  rcases s.settle_cases j began r with ⟨outcome, hst, htables⟩ | ⟨-, hst, htables⟩
  · constructor
    · rw [held_of_tables htables, held_release, hst]
      simp [Stage.Holds]
    · rw [hst]
      exact False.elim
  · constructor
    · rw [held_of_tables htables, hst]
      by_cases hn : j.Needs k <;> simp [Stage.Holds, hn, hj]
    · rw [hst]
      exact .inl

/-- A job that starts with its lock taken for it holds the lock unless it ends at once. -/
theorem launch_transfers {s₀ : Session} {w : Nat} (hs : s.Held k ↔ j.Needs k ∨ s₀.Held k)
    (hfree : j.Needs k → ¬ s₀.Held k) : Transfers s₀ (.waiting w) (s.launch j) k := by
  rcases s.settle_cases j s.hub.now (Activity.start j.device s.hub (j.purpose.procedure s.verbose))
    with ⟨outcome, hst, htables⟩ | ⟨-, hst, htables⟩
  · constructor
    · rw [launch, held_of_tables htables, held_release, hst, hs]
      by_cases hn : j.Needs k <;> simp [Stage.Holds, hn, hfree]
    · rw [launch, hst]
      exact False.elim
  · constructor
    · rw [launch, held_of_tables htables, hst, hs]
      simp [Stage.Holds]
    · rw [launch, hst]
      exact fun hn => .inr (hfree hn)

theorem refuse_transfers {s₀ : Session} {w : Nat} {e : Fault} (hs : s.Held k ↔ s₀.Held k) :
    Transfers s₀ (.waiting w) (s.refuse e) k := by
  constructor
  · change s.Held k ↔ _
    simp [Stage.Holds, refuse, hs]
  · exact False.elim

theorem held_request {tables : LockTables} (h : s.tables.request k = .ok tables) (k' : LockKey) :
    Held { s with tables } k' ↔ s.Held k' := by
  unfold Held
  rw [LockTables.lock?_request h]
  by_cases hk : k' = k
  · subst hk
    cases s.tables.lock? k' <;> simp
  · simp [hk]

theorem enter_transfers {w : Nat} : Transfers s (.waiting w) (s.enter j) k := by
  unfold enter
  split
  · next hlock =>
    have hn : ¬ j.Needs k := by simp [Job.Needs, hlock]
    exact launch_transfers (by simp [hn]) (absurd · hn)
  · next o key hlock =>
    have hneeds : ∀ k, j.Needs k ↔ k = key := by simp [Job.Needs, hlock, eq_comm]
    split
    · exact refuse_transfers .rfl
    · next tables hr =>
      have hheld := held_request hr
      dsimp only
      split
      · exact refuse_transfers (hheld k)
      · exact refuse_transfers (hheld k)
      · next hnot _ =>
        have hthere : (tables.lock? key).isSome := by simp [LockTables.lock?_request hr]
        refine launch_transfers ?_ ?_
        · rw [held_setLock_held hthere, hheld, hneeds]
        · intro hn hk
          rw [(hneeds k).mp hn] at hk
          exact hnot ((hheld key).mpr hk)

theorem start_transfers {c : Call} {w : Nat} : Transfers s (.waiting w) (s.start c) k := by
  unfold start
  dsimp only
  split
  · exact refuse_transfers .rfl
  · next j _ =>
    have h := enter_transfers (s := s.write (c.service.job c.data s.hub s.hasGateway).log) (j := j)
      (k := k) (w := w)
    exact ⟨h.held, h.taken⟩

/-- Whatever becomes of a task, its lock follows it. -/
theorem move_transfers {t : Task} (ht : t.stage.Holds k → s.Held k) :
    Transfers s t.stage (s.move t) k := by
  unfold move
  split
  · next w h =>
    rw [h]
    exact start_transfers
  · next j began activity h =>
    rw [h] at ht ⊢
    split
    · constructor
      · change (s.release j).Held k ↔ _
        rw [held_release]
        simp [Stage.Holds, refuse]
      · exact False.elim
    · exact settle_transfers ht
  · next h =>
    constructor
    · by_cases hn : t.stage.Holds k <;> simp [hn, ht]
    · exact .inl

/-! ### All sessions -/

theorem Locked.ofNone {s : Session} (hnone : ∀ k, ¬ s.Held k)
    (hidle : ∀ t ∈ s.tasks, ∀ k, ¬ t.stage.Holds k) : s.Locked := by
  have hno : ∀ (i : Nat) (t : Task), s.tasks[i]? = some t → ∀ k, ¬ t.stage.Holds k :=
    fun i t ht k => hidle t (List.mem_of_getElem? ht) k
  constructor
  · intro k
    constructor
    · exact fun h => absurd h (hnone k)
    · rintro ⟨i, t, ht, hk⟩
      exact absurd hk (hno i t ht k)
  · intro i _ t _ k ht _ hk _
    exact absurd hk (hno i t ht k)

/-- Moving one task on keeps the locks in agreement with the tasks. -/
theorem Locked.advance (h : s.Locked) (i : Nat) : (s.advance i).Locked := by
  unfold Session.advance
  split
  · exact h
  · next t ht =>
    let r := (s.atWake t).move t
    have hmove : ∀ k, Transfers (s.atWake t) t.stage r k :=
      fun k => move_transfers fun hk => (h.held k).mpr ⟨i, t, ht, hk⟩
    have hself : (s.tasks.set i { t with stage := r.1 })[i]? = some { t with stage := r.1 } :=
      List.getElem?_set_self (List.getElem?_eq_some_iff.mp ht).1
    -- no other task holds what this one has taken or still holds
    have hother : ∀ i' t' k, i' ≠ i → s.tasks[i']? = some t' → t'.stage.Holds k → ¬ r.1.Holds k := by
      intro i' t' k hi ht' hk hr
      rcases (hmove k).taken hr with hold | hnot
      · exact hi (h.single i' i t' t k ht' ht hk hold)
      · exact hnot ((h.held k).mpr ⟨i', t', ht', hk⟩)
    constructor
    · intro k
      refine (hmove k).held.trans ⟨?_, ?_⟩
      · rintro (hr | ⟨hheld, hnot⟩)
        · exact ⟨i, _, hself, hr⟩
        · obtain ⟨i', t', ht', hk⟩ := (h.held k).mp hheld
          have hi : i' ≠ i := by
            rintro rfl
            rw [ht] at ht'
            cases ht'
            exact hnot hk
          exact ⟨i', t', by rwa [List.getElem?_set_ne (Ne.symm hi)], hk⟩
      · rintro ⟨i', t', ht', hk⟩
        rcases getElem?_set_cases ht ht' with ⟨rfl, rfl⟩ | ⟨hi, ht'⟩
        · exact .inl hk
        · refine .inr ⟨(h.held k).mpr ⟨i', t', ht', hk⟩, fun hold => ?_⟩
          exact hi (h.single i' i t' t k ht' ht hk hold)
    · intro i₁ i₂ t₁ t₂ k h₁ h₂ hk₁ hk₂
      rcases getElem?_set_cases ht h₁ with ⟨rfl, rfl⟩ | ⟨hi₁, old₁⟩
      · rcases getElem?_set_cases ht h₂ with ⟨rfl, rfl⟩ | ⟨hi₂, old₂⟩
        · rfl
        · exact absurd hk₁ (hother i₂ t₂ k hi₂ old₂ hk₂)
      · rcases getElem?_set_cases ht h₂ with ⟨rfl, rfl⟩ | ⟨hi₂, old₂⟩
        · exact absurd hk₂ (hother i₁ t₁ k hi₁ old₁ hk₁)
        · exact h.single i₁ i₂ t₁ t₂ k old₁ old₂ hk₁ hk₂

theorem not_holds_of_result {t : Task} (h : t.result?.isSome) : ¬ t.stage.Holds k := by
  unfold Task.result? at h
  split at h
  · next hst =>
    rw [hst]
    exact id
  · cases h

/-- Once all tasks have ended all locks are free. -/
theorem Locked.not_held_of_idle (h : s.Locked) (idle : s.Idle) (k : LockKey) : ¬ s.Held k := by
  intro hk
  obtain ⟨i, t, ht, hholds⟩ := (h.held k).mp hk
  exact not_holds_of_result (idle t (List.mem_of_getElem? ht)) hholds

theorem Reachable.locked (h : s.Reachable) : s.Locked := by
  induction h with
  | @setUp data _ _ s hs =>
    obtain ⟨htasks, htables⟩ := setUp_ok hs
    refine .ofNone (fun k => ?_) (by simp [htasks])
    rw [Held, htables]
    exact LockTables.lock?_ofData s.data k
  | call _ idle calls ih =>
    refine .ofNone (ih.not_held_of_idle idle) ?_
    intro t ht k
    obtain ⟨c, -, rfl⟩ := List.mem_map.mp ht
    exact id
  | arrange _ a f ih => exact ⟨ih.held, ih.single⟩
  | advance _ i ih => exact ih.advance i

/-- Calls that have run side by side to their ends leave no lock behind. -/
theorem Reachable.perform_frees (h : s.Reachable) (idle : s.Idle) (calls : List Call)
    (k : LockKey) : ¬ (s.perform calls).2.Held k :=
  have ⟨hreachable, hidle⟩ := h.perform idle calls
  hreachable.locked.not_held_of_idle hidle k

/-! ### What the host keeps -/

theorem release_kept (hj : ∀ k, j.Needs k → s.Held k) : s.tables.Kept (s.release j).tables := by
  unfold release
  split
  · next o key hlock =>
    have hheld : s.tables.lock? key = some .held := hj key ⟨o, hlock⟩
    have hkey : s.tables.Proper key := LockTables.proper_of_lock? hheld fun _ => nofun
    exact LockTables.kept_put (l := .free) hkey fun _ => nofun
  · exact .rfl

theorem settle_kept {began : Nat} {r : Activity Entries × Hub} (hj : ∀ k, j.Needs k → s.Held k) :
    s.tables.Kept (s.settle j began r).2.tables := by
  rcases s.settle_cases j began r with ⟨_, -, htables⟩ | ⟨-, -, htables⟩
  · rw [htables]
    exact release_kept hj
  · rw [htables]
    exact .rfl

theorem launch_kept (hj : ∀ k, j.Needs k → s.Held k) : s.tables.Kept (s.launch j).2.tables :=
  settle_kept hj

theorem enter_kept (s : Session) (j : Job) : s.tables.Kept (s.enter j).2.tables := by
  unfold enter
  split
  · next hlock => exact launch_kept (by simp [Job.Needs, hlock])
  · next o key hlock =>
    split
    · exact .rfl
    · next tables hr =>
      dsimp only
      split
      · exact LockTables.kept_request hr
      · exact LockTables.kept_request hr
      · next hnot hproper =>
        obtain ⟨l, hl⟩ : ∃ l, tables.lock? key = some l := by
          rw [LockTables.lock?_request hr, if_pos rfl]
          exact ⟨_, rfl⟩
        have hkey : tables.Proper key := by
          refine LockTables.proper_of_lock? hl ?_
          rintro v rfl
          exact hproper v hl
        have hput := LockTables.kept_put (l := .held) hkey fun _ => nofun
        have hheld : ∀ k, j.Needs k → (setLock { s with tables } key .held).Held k := by
          rintro k' ⟨o', hk'⟩
          rw [hlock] at hk'
          cases hk'
          exact (held_setLock_held (s := { s with tables }) (by simp [hl]) _).mpr (.inl rfl)
        exact ((LockTables.kept_request hr).trans hput).trans (launch_kept hheld)

theorem move_kept {t : Task} (ht : ∀ k, t.stage.Holds k → s.Held k) :
    s.tables.Kept (s.move t).2.tables := by
  unfold move
  split
  · unfold start
    dsimp only
    split
    · exact .rfl
    · next j _ => exact enter_kept (s.write (t.call.service.job t.call.data s.hub s.hasGateway).log) j
  · next j began activity h =>
    rw [h] at ht
    split
    · exact release_kept ht
    · exact settle_kept ht
  · exact .rfl

/-- No call changes what the host keeps in place of locks. -/
theorem Reachable.kept (h : s.Reachable) : (LockTables.ofData s.data).Kept s.tables := by
  induction h with
  | setUp hs =>
    rw [(setUp_ok hs).2]
    exact .rfl
  | call _ _ calls ih => exact ih
  | arrange _ a f ih => exact ih
  | @advance s hs i ih =>
    cases ht : s.tasks[i]? with
    | none =>
      simp only [Session.advance, ht]
      exact ih
    | some t =>
      have hhost : (s.advance i).data = s.data := congrArg Prod.snd (s.advance_host i)
      have hholds : ∀ k, t.stage.Holds k → (s.atWake t).Held k :=
        fun k hk => (hs.locked.held k).mpr ⟨i, t, ht, hk⟩
      have hmove : s.tables.Kept ((s.atWake t).move t).2.tables :=
        move_kept (s := s.atWake t) hholds
      rw [hhost, advance_eq ht]
      exact ih.trans hmove

theorem Reachable.proper (h : s.Reachable) (k : LockKey) :
    s.tables.Proper k ↔ (LockTables.ofData s.data).Proper k := h.kept.proper k

end Session

end Commissioning

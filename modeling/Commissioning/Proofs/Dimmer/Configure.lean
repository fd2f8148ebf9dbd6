import Commissioning.Dimmer.Configure
import Commissioning.Proofs.Device.Carrying
import Commissioning.Proofs.Device.Writes
import Commissioning.Proofs.Dimmer.Settings

/-!
The configuration of a dimmer from its request to its report. The mode is written before the level,
each to its own cluster and only if it is asked for; the report tells what the clusters keep then:

    mode ──▶ setup cluster ─┬─ refused ─▶ failed: nothing stored, nothing else asked
                            └─ stored ──▶ level ──▶ level cluster ─┬─ refused ─▶ failed: mode stored
                                                                   └─ stored ──▶ four reads ──▶ report
-/
namespace Commissioning.Dimmer
open Hub Procedure

/-! ### The requests -/

/-- The write of a mode. -/
def modeWrite (p : PhaseControl) : Request :=
  .write .dimmerSetup [(Attribute.mode, .int p.code)] none

/-- The write of a level. -/
def levelWrite (n : Numeral) : Request :=
  .write .levelControl [(Attribute.minimumOnLevel, n.toValue)] (some manufacturerCode)

/-- The writes that settings ask for, the mode before the level. -/
def Settings.writes (s : Settings) : List Request :=
  (s.phase.map modeWrite).toList ++ (s.level.map levelWrite).toList

/-- The reads of a report. -/
def reportReads : List Request := [
  .read .dimmerSetup [Attribute.capabilities] none,
  .read .dimmerSetup [Attribute.status] none,
  .read .dimmerSetup [Attribute.mode] none,
  .read .levelControl [Attribute.minimumOnLevel] (some manufacturerCode)]

theorem ofRequest_levelWrite (n : Numeral) : ClusterCall.ofRequest (levelWrite n) =
    .ok (.write [(Attribute.minimumOnLevel, n.toValue)] (some manufacturerCode)) := by
  cases n <;> rfl

/-! ### What the clusters keep -/

/-- The numbers of a dimmer. -/
structure Numbers where
  capabilities : Int
  status : Int
  mode : Int
  least : Int

/-- A number is kept under a name, plain or as the cluster library has it. -/
def Keeps (values : Entries) (name : String) (n : Int) : Prop :=
  ∃ v, values.get? name = some v ∧ Zcl.plain v = .ok (.int n)

/-- The two clusters keep these numbers. -/
structure Numbers.KeptBy (n : Numbers) (setup level : Entries) : Prop where
  capabilities : Keeps setup Attribute.capabilities n.capabilities
  status : Keeps setup Attribute.status n.status
  mode : Keeps setup Attribute.mode n.mode
  least : Keeps level Attribute.minimumOnLevel n.least

/-- The setup cluster once the mode has been stored. -/
def Settings.setup (s : Settings) (setup : Entries) : Entries :=
  match s.phase with
  | some p => setup.put Attribute.mode (.int p.code)
  | none => setup

/-- The level cluster once the level has been stored. -/
def Settings.leveled (s : Settings) (level : Entries) : Entries :=
  match s.level with
  | some n => level.put Attribute.minimumOnLevel n.toValue
  | none => level

/-- The numbers once settings have been stored. -/
def Settings.numbers (s : Settings) (n : Numbers) : Numbers where
  capabilities := n.capabilities
  status := n.status
  mode := (s.phase.map PhaseControl.code).getD n.mode
  least := (s.level.map Numeral.number).getD n.least

theorem Keeps.put {values : Entries} {name : String} {n : Int} (h : Keeps values name n)
    {key : String} (hkey : name ≠ key) (v : Value) : Keeps (values.put key v) name n := by
  obtain ⟨w, hw, hplain⟩ := h
  exact ⟨w, by rw [Entries.get?_put, if_neg hkey, hw], hplain⟩

theorem keeps_put_self (values : Entries) (name : String) {v : Value} {n : Int}
    (hv : Zcl.plain v = .ok (.int n)) : Keeps (values.put name v) name n :=
  ⟨v, by rw [Entries.get?_put, if_pos rfl], hv⟩

/-- Stored settings change the numbers that they are for, and no others. -/
theorem Numbers.KeptBy.stored {n : Numbers} {setup level : Entries} (h : n.KeptBy setup level)
    (s : Settings) : (s.numbers n).KeptBy (s.setup setup) (s.leveled level) := by
  obtain ⟨phase, least⟩ := s
  constructor
  · cases phase with
    | none => exact h.capabilities
    | some p => exact h.capabilities.put (by decide) _
  · cases phase with
    | none => exact h.status
    | some p => exact h.status.put (by decide) _
  · cases phase with
    | none => exact h.mode
    | some p => exact keeps_put_self _ _ rfl
  · cases least with
    | none => exact h.least
    | some m => exact keeps_put_self _ _ (by cases m <;> rfl)

/-! ### The report -/

/-- The report of numbers, with a name for the mode. -/
def report (name : String) (n : Numbers) : Entries := [
  (Attribute.capabilities, .int n.capabilities),
  ("decoded_capabilities", .dict (bitsAt capabilityPlaces n.capabilities)),
  (Attribute.status, .int n.status),
  ("decoded_status", .dict (bitsAt statusPlaces n.status)),
  (Attribute.mode, .int n.mode),
  ("phase_control_mode", .str name),
  (Attribute.minimumOnLevel, .int n.least)]

variable {a : Address} {kept : Cluster → Option Entries} {setup level : Entries} {n : Numbers}

theorem integerOf_eq {values : Entries} {name : String} {n : Int}
    (h : values.get? name = some (.int n)) : integerOf values name = .ok n := by
  rw [integerOf, h]
  by_cases hn : n = 0
  · subst hn
    rfl
  · have htruthy : (Value.int n).isTruthy = true := bne_iff_ne.mpr hn
    dsimp only
    rw [if_pos htruthy]
    rfl

theorem carries_report (hsetup : kept .dimmerSetup = some setup)
    (hlevel : kept .levelControl = some level) (hn : n.KeptBy setup level) :
    Carries a read kept (.ok (report (nameOfBits n.mode) n)) reportReads kept := by
  obtain ⟨⟨c, hc, hc'⟩, ⟨t, ht, ht'⟩, ⟨m, hm, hm'⟩, ⟨l, hl, hl'⟩⟩ := hn
  refine carries_bind (carries_read hsetup hc hc' none) ?_
  refine carries_bind (carries_read hsetup ht ht' none) ?_
  refine carries_bind (carries_read hsetup hm hm' none) ?_
  refine carries_bind_quiet (carries_read hlevel hl hl' (some manufacturerCode)) ?_
  refine carries_bind_quiet (carries_ofMismatch (integerOf_eq rfl)) ?_
  refine carries_bind_quiet (carries_ofMismatch (integerOf_eq rfl)) ?_
  refine carries_bind_quiet (carries_ofMismatch (integerOf_eq rfl)) ?_
  rw [report, ← decode_capabilities, ← decode_status, ← nameOfMode_eq]
  exact carries_pure

/-! ### The writes -/

theorem carries_writePhase (s : Settings) (verbosity : Level)
    (hsetup : kept .dimmerSetup = some setup) : Carries a (writePhase verbosity s.phase) kept (.ok ())
      (s.phase.map modeWrite).toList (Function.update kept .dimmerSetup (some (s.setup setup))) := by
  unfold Settings.setup
  cases s.phase with
  | none =>
    dsimp only
    rw [← hsetup, Function.update_eq_self]
    exact carries_pure
  | some p =>
    refine carries_bind_quiet (carries_write (q := modeWrite p) hsetup rfl (.plain _ _) rfl) ?_
    exact carries_note verbosity _ _

theorem carries_writeLevel (s : Settings) (verbosity : Level)
    (hlevel : kept .levelControl = some level) : Carries a (writeLevel verbosity s.level) kept (.ok ())
      (s.level.map levelWrite).toList
      (Function.update kept .levelControl (some (s.leveled level))) := by
  unfold Settings.leveled
  cases s.level with
  | none =>
    dsimp only
    rw [← hlevel, Function.update_eq_self]
    exact carries_pure
  | some n =>
    have hwire : (ClusterCall.write [(Attribute.minimumOnLevel, n.toValue)]
        (some manufacturerCode)).unwired? = none := by
      cases n <;> rfl
    refine carries_bind_quiet
      (carries_write (q := levelWrite n) hlevel (ofRequest_levelWrite n) (.plain _ _) hwire) ?_
    exact carries_note verbosity _ _

/-- The setup cluster and the level cluster keep values. -/
def keeping (setup level : Entries) : Cluster → Option Entries
  | .dimmerSetup => some setup
  | .levelControl => some level
  | _ => none

theorem carries_apply (s : Settings) (verbose : Bool) (hn : n.KeptBy setup level) :
    Carries a (apply s verbose) (keeping setup level)
      (.ok (report (nameOfBits (s.numbers n).mode) (s.numbers n))) (s.writes ++ reportReads)
      (keeping (s.setup setup) (s.leveled level)) := by
  have hafter : Function.update (Function.update (keeping setup level) .dimmerSetup
      (some (s.setup setup))) .levelControl (some (s.leveled level)) =
        keeping (s.setup setup) (s.leveled level) := by
    funext c
    cases c <;> simp [Function.update, keeping]
  refine carries_clock_bind fun start => ?_
  rw [Settings.writes, List.append_assoc]
  refine carries_bind (carries_writePhase s _ rfl) ?_
  have hlevel : Function.update (keeping setup level) .dimmerSetup (some (s.setup setup))
      .levelControl = some level := rfl
  refine carries_bind (carries_writeLevel s _ hlevel) ?_
  rw [hafter]
  refine carries_bind_quiet (carries_report rfl rfl (hn.stored s)) ?_
  refine carries_clock_bind fun finish => ?_
  exact carries_bind_quiet (carries_note _ _ _) carries_pure

theorem configure_eq {phase minimum : Value} {s : Settings} (hs : check phase minimum = .ok s)
    (verbose : Bool) : configure phase minimum verbose = apply s verbose := by
  rw [configure, hs]
  rfl

/-! ### A write that is refused -/

variable {h : Hub} {s : Settings} {t : ClusterState} {phase minimum : Value}

theorem perform_write_refused {q : Request} {form : WriteForm} {call : ClusterCall}
    (hq : q.writeForm? = some form) (ht : h.cluster a q.cluster = .ok t)
    (hcall : ClusterCall.ofRequest q = .ok call) (hr : t.react.1.Refuses h.limit) :
    ∃ e, (do let _ ← send q : Procedure Unit).perform a h =
      (.error (.link e), (h.exchange a q).2) := by
  obtain ⟨⟨e, herror⟩, -⟩ := exchange_refused hq ht hcall hr
  refine ⟨e, ?_⟩
  rw [perform_write, herror]
  rfl

/-- A mode that is refused is the end: nothing has been stored, and nothing else is asked. -/
theorem perform_apply_modeRefused {p : PhaseControl} (hp : s.phase = some p)
    (ht : h.cluster a .dimmerSetup = .ok t) (hr : t.react.1.Refuses h.limit) (verbose : Bool) :
    ∃ e, (apply s verbose).perform a h = (.error (.link e), (h.exchange a (modeWrite p)).2) := by
  obtain ⟨e, hwrite⟩ := perform_write_refused (q := modeWrite p) rfl ht rfl hr
  refine ⟨e, ?_⟩
  have hphase : (writePhase (Level.ofVerbose verbose) s.phase).perform a h =
      (.error (.link e), (h.exchange a (modeWrite p)).2) := by
    rw [hp]
    exact perform_bind_error hwrite
  change ((writePhase (Level.ofVerbose verbose) s.phase) >>= fun _ => _).perform a h = _
  exact perform_bind_error hphase

/-- A level that is refused leaves the mode stored, and nothing is read. -/
theorem perform_apply_levelRefused {m : Numeral} (hm : s.level = some m)
    (hh : h.Holds a .dimmerSetup setup) (ht : h.cluster a .levelControl = .ok t)
    (hr : t.react.1.Refuses h.limit) (verbose : Bool) :
    ∃ e h', (apply s verbose).perform a h = (.error (.link e), h') ∧ h.Called h' s.writes ∧
      h'.Holds a .dimmerSetup (s.setup setup) ∧
      ∃ t', h'.cluster a .levelControl = .ok t' ∧ t'.values = t.values := by
  -- only the setup cluster is followed: the level cluster stays as it is until its write
  let kept : Cluster → Option Entries := Function.update (fun _ => none) .dimmerSetup (some setup)
  have hkept : h.HoldsAll a kept := holdsAll_update hh fun _ _ _ hw => nomatch hw
  have hsetup : kept .dimmerSetup = some setup := Function.update_self _ _ _
  obtain ⟨h₁, hphase, hturns⟩ := carries_writePhase s (Level.ofVerbose verbose) hsetup h hkept
  have hset : h₁.Holds a .dimmerSetup (s.setup setup) :=
    hturns.holds _ _ (Function.update_self _ _ _)
  have ht₁ : h₁.cluster a .levelControl = .ok t := by
    have hnone : kept .levelControl = none := Function.update_of_ne (by decide) _ _
    rw [(hturns.others .levelControl hnone).2, ht]
  have hr₁ : t.react.1.Refuses h₁.limit := hturns.limit ▸ hr
  have hcall := ofRequest_levelWrite m
  obtain ⟨e, hwrite⟩ := perform_write_refused (q := levelWrite m) rfl ht₁ hcall hr₁
  obtain ⟨-, hsame⟩ := exchange_refused (q := levelWrite m) rfl ht₁ hcall hr₁
  have hlevel : (writeLevel (Level.ofVerbose verbose) s.level).perform a h₁ =
      (.error (.link e), (h₁.exchange a (levelWrite m)).2) := by
    rw [hm]
    exact perform_bind_error hwrite
  refine ⟨e, (h₁.exchange a (levelWrite m)).2, ?_, ?_, ?_, hsame _ t ht₁⟩
  · change ((writePhase (Level.ofVerbose verbose) s.phase) >>= fun _ => _).perform a h = _
    exact (perform_bind_ok hphase).trans (perform_bind_error hlevel)
  · have hcalled := hturns.calls.trans (called_exchange (q := levelWrite m) ht₁ hcall rfl)
    rw [Settings.writes, hm]
    exact hcalled
  · have hother : Cluster.dimmerSetup ≠ .levelControl := by decide
    exact hset.of_ne (q := levelWrite m) hother

/-! ### The whole configuration -/

/-- The name that a report shows for the mode: the one that is asked for, else that of the mode. -/
def shownName (phase : Value) (mode : Int) : String :=
  match phase with
  | .null => nameOfBits mode
  | v => spelled v

theorem nameOfBits_numbers (hs : check phase minimum = .ok s) (n : Numbers) :
    nameOfBits (s.numbers n).mode = shownName phase n.mode := by
  rcases readPhase_eq_ok (check_eq_ok hs).1 with ⟨rfl, hp⟩ | ⟨p, hgiven, hp, hname⟩
  · rw [Settings.numbers, hp]
    rfl
  · have hshown : shownName phase n.mode = spelled phase := by
      unfold shownName
      split
      · exact absurd rfl hgiven
      · rfl
    have hcode : nameOfBits p.code = p.name := by cases p <;> rfl
    rw [Settings.numbers, hp, hshown, ← hname]
    exact hcode

theorem numbers_eq (hs : check phase minimum = .ok s) (n : Numbers) : s.numbers n =
    { n with
      mode := (s.phase.map PhaseControl.code).getD n.mode
      least := minimum.asInt?.getD n.least } := by
  have hleast : s.level.map Numeral.number = minimum.asInt? := by
    rcases readLevel_eq_ok (check_eq_ok hs).2 with ⟨rfl, hl⟩ | ⟨m, hl, rfl⟩
    · rw [hl]
      rfl
    · rw [hl]
      cases m <;> rfl
  rw [Settings.numbers, hleast]

/-- A request that passes its check is carried out as it says: on a dimmer that stores what is written
the report shows what was asked for beside what was there, and a write that is refused is the last
thing that is asked, with all before it stored. -/
theorem configure_dimmer (hs : check phase minimum = .ok s) (hn : n.KeptBy setup level)
    (verbose : Bool) (a : Address) (h : Hub) :
    let run := (configure phase minimum verbose).perform a h
    (h.Holds a .dimmerSetup setup → h.Holds a .levelControl level →
      run.1 = .ok (report (shownName phase n.mode) { n with
        mode := (s.phase.map PhaseControl.code).getD n.mode
        least := minimum.asInt?.getD n.least }) ∧
      h.Called run.2 (s.writes ++ reportReads) ∧
      run.2.Holds a .dimmerSetup (s.setup setup) ∧ run.2.Holds a .levelControl (s.leveled level)) ∧
    (∀ p t, s.phase = some p → h.cluster a .dimmerSetup = .ok t → t.react.1.Refuses h.limit →
      (∃ e, run.1 = .error e ∧ e.category = .transport) ∧
      h.Called run.2 [modeWrite p] ∧ h.SameValues run.2 a) ∧
    (∀ m t, s.level = some m → h.Holds a .dimmerSetup setup →
      h.cluster a .levelControl = .ok t → t.react.1.Refuses h.limit →
      (∃ e, run.1 = .error e ∧ e.category = .transport) ∧
      h.Called run.2 s.writes ∧ run.2.Holds a .dimmerSetup (s.setup setup) ∧
      ∃ t', run.2.cluster a .levelControl = .ok t' ∧ t'.values = t.values) := by
  rw [configure_eq hs]
  refine ⟨fun hsetup hlevel => ?_, fun p t hp ht hr => ?_, fun m t hm hsetup ht hr => ?_⟩
  · have hkept : h.HoldsAll a (keeping setup level) := by
      intro c values hc
      cases c with
      | dimmerSetup => exact Option.some.inj hc ▸ hsetup
      | levelControl => exact Option.some.inj hc ▸ hlevel
      | _ => cases hc
    obtain ⟨h', hrun, hturns⟩ := carries_apply s verbose hn h hkept
    rw [nameOfBits_numbers hs, numbers_eq hs] at hrun
    rw [hrun]
    exact ⟨rfl, hturns.calls, hturns.holds _ _ rfl, hturns.holds _ _ rfl⟩
  · obtain ⟨e, hrun⟩ := perform_apply_modeRefused hp ht hr verbose
    rw [hrun]
    exact ⟨⟨.link e, rfl, rfl⟩, called_exchange (q := modeWrite p) ht rfl rfl,
      (exchange_refused (q := modeWrite p) rfl ht rfl hr).2⟩
  · obtain ⟨e, h', hrun, hcalled, hset, hsame⟩ :=
      perform_apply_levelRefused hm hsetup ht hr verbose
    rw [hrun]
    exact ⟨⟨.link e, rfl, rfl⟩, hcalled, hset, hsame⟩

/-- A technique in capital letters with blanks around it and a level, for a dimmer that acknowledges
both; and the same for one that refuses the level. -/
theorem configure_dimmer_forward :
    let a : Address := ⟨List.replicate 16 '0'⟩
    let setup : Entries :=
      [(Attribute.capabilities, .int 0xA1), (Attribute.status, .int (-1)), (Attribute.mode, .int 0xFE)]
    let level : Entries := [(Attribute.minimumOnLevel, .int 3)]
    let dimmer (reaction : Reaction) : Hub := Hub.single a [
      (.dimmerSetup, { values := setup, script := [.acknowledging], wired := true }),
      (.levelControl, { values := level, script := [reaction], wired := true })]
    let refusing : Reaction := {
      reply := .record (some 0x88) none [.number 2, .number 0x88]
      stores := false }
    let run (h : Hub) := (configure (.str " FORWARD\t") (.int 7) false).perform a h
    (run (dimmer .acknowledging)).1 = .ok (report "forward" ⟨0xA1, -1, 1, 7⟩) ∧
      (run (dimmer .acknowledging)).2.Holds a .levelControl
        (level.put Attribute.minimumOnLevel (.int 7)) ∧
      (∃ e, (run (dimmer refusing)).1 = .error e ∧ e.category = .transport) ∧
      (run (dimmer refusing)).2.Holds a .dimmerSetup (setup.put Attribute.mode (.int 1)) := by
  intro a setup level dimmer refusing run
  let s : Settings := ⟨some .forward, some (.plain 7)⟩
  have hspelled : spelled (.str " FORWARD\t") = "forward" := by decide +kernel
  have hgiven : Value.str " FORWARD\t" ≠ .null := nofun
  have hs : check (.str " FORWARD\t") (.int 7) = .ok s := by
    have hphase : readPhase (.str " FORWARD\t") = .ok (some .forward) :=
      readPhase_of_name hgiven hspelled.symm
    rw [check, hphase]
    rfl
  let n : Numbers := ⟨0xA1, -1, 0xFE, 3⟩
  have hn : n.KeptBy setup level :=
    ⟨⟨_, rfl, rfl⟩, ⟨_, rfl, rfl⟩, ⟨_, rfl, rfl⟩, ⟨_, rfl, rfl⟩⟩
  have hscript : ∀ r ∈ [Reaction.acknowledging], r.Plain Hub.defaultLimit :=
    List.forall_mem_singleton.mpr (Reaction.plain_acknowledging _)
  have hsetup (reaction : Reaction) : (dimmer reaction).Holds a .dimmerSetup setup :=
    holds_single (s := { values := setup, script := [.acknowledging], wired := true }) rfl
      ⟨rfl, hscript⟩
  have hlevel : (dimmer .acknowledging).Holds a .levelControl level :=
    holds_single (s := { values := level, script := [.acknowledging], wired := true }) rfl
      ⟨rfl, hscript⟩
  obtain ⟨hreport, -, -, hleveled⟩ :=
    (configure_dimmer hs hn false a (dimmer .acknowledging)).1 (hsetup _) hlevel
  have hshown : shownName (.str " FORWARD\t") n.mode = "forward" := hspelled
  rw [hshown] at hreport
  obtain ⟨herror, -, hset, -⟩ := (configure_dimmer hs hn false a (dimmer refusing)).2.2
    (.plain 7) _ rfl (hsetup refusing) (Hub.cluster_single rfl)
    (.rejected (.response 2 0x88) (List.mem_singleton_self 0x88) (by decide) rfl)
  exact ⟨hreport, hleveled, herror, hset⟩

end Commissioning.Dimmer

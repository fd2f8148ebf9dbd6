import Commissioning.Proofs.Device.Opening
import Commissioning.Proofs.Exchange.Regular

/-!
Two hubs side by side, on which one device is in the same state. A procedure that starts on that
device at one time, and its copy that starts at another time, make the same calls at the same
distance from their starts, and end with the same outcome. What else there is on either hub has no
say in it, and stays as it is.

    at b  + n    device d    start ──▶ calls at b  + n    device d₁    the others as before
    at b' + n    device d    start ──▶ calls at b' + n    device d₁    the others as before
-/
namespace Commissioning
open Procedure

/-- A call as it is recorded in a run that starts at a time. -/
def CallRecord.later (b : Nat) (c : CallRecord) : CallRecord := { c with time := b + c.time }

namespace Hub
variable {here : Option Address} {b b' : Nat} {l l' : List CallRecord} {h h' : Hub} {a : Address}

/-- Two hubs have the same device at an address, and grant calls the same time. -/
structure Alike (here : Option Address) (h h' : Hub) : Prop where
  limit : h'.limit = h.limit
  device : ∀ a ∈ here, h'.device? a = h.device? a

theorem Alike.cluster (hh : Alike here h h') (ha : a ∈ here) (c : Cluster) :
    h'.cluster a c = h.cluster a c := by
  rw [Hub.cluster, Hub.cluster, hh.device a ha]

theorem Alike.duration (hh : Alike here h h') (x : OpenCall) : h'.duration x = h.duration x := by
  rw [Hub.duration, Hub.duration, hh.limit]

/-- Two such hubs as long after two starts, with the same calls since they had two lists of them. -/
structure Beside (here : Option Address) (b b' : Nat) (l l' : List CallRecord) (h h' : Hub) : Prop
    extends Alike here h h' where
  now : ∃ n, h.now = b + n ∧ h'.now = b' + n
  calls : ∃ cs : List CallRecord,
    h.calls = l ++ cs.map (·.later b) ∧ h'.calls = l' ++ cs.map (·.later b')

theorem Beside.write (hh : Beside here b b' l l' h h') (lines lines' : Log) :
    Beside here b b' l l' (h.write lines) (h'.write lines') :=
  ⟨⟨hh.limit, hh.device⟩, hh.now, hh.calls⟩

theorem Beside.update (hh : Beside here b b' l l' h h') (ha : a ∈ here) (c : Cluster)
    (f : ClusterState → ClusterState) :
    Beside here b b' l l' (h.update a fun d => d.update (Device.place c) f)
      (h'.update a fun d => d.update (Device.place c) f) := by
  refine ⟨⟨hh.limit, fun a' ha' => ?_⟩, hh.now, hh.calls⟩
  cases Option.mem_unique ha ha'
  rw [device?_update_cluster, device?_update_cluster, hh.device a ha]

theorem Beside.call (hh : Beside here b b' l l' h h') (ha : a ∈ here) (c : Cluster)
    (s : ClusterState) (q : Request) (call : ClusterCall) :
    (h'.call a c s q call).1 = (h.call a c s q call).1 ∧
      Beside here b b' l l' (h.call a c s q call).2 (h'.call a c s q call).2 := by
  obtain ⟨n, hn, hn'⟩ := hh.now
  obtain ⟨cs, hcs, hcs'⟩ := hh.calls
  have hupdate := hh.update ha c fun _ => s.react.2
  let made : CallRecord := ⟨n, c.endpoint, c.id, call⟩
  refine ⟨rfl, ⟨hupdate.limit, hupdate.device⟩, hupdate.now, cs ++ [made], ?_, ?_⟩
  · change h.calls ++ [⟨h.now, _, _, _⟩] = _
    rw [hcs, hn, List.map_append, List.append_assoc]
    rfl
  · change h'.calls ++ [⟨h'.now, _, _, _⟩] = _
    rw [hcs', hn', List.map_append, List.append_assoc]
    rfl

theorem Beside.begin (hh : Beside here b b' l l' h h') (ha : a ∈ here) (q : Request) :
    (h'.begin a q).1 = (h.begin a q).1 ∧
      Beside here b b' l l' (h.begin a q).2 (h'.begin a q).2 := by
  have hwrite := hh.write [q.line] [q.line]
  unfold Hub.begin
  rw [hh.cluster ha]
  cases h.cluster a q.cluster with
  | error e => exact ⟨rfl, hh⟩
  | ok s =>
    cases ClusterCall.ofRequest q with
    | error e => exact ⟨rfl, hh⟩
    | ok call =>
      dsimp only
      cases refusal? q with
      | some e => exact ⟨rfl, hwrite⟩
      | none =>
        obtain ⟨hopen, hafter⟩ := hwrite.call ha q.cluster s q call
        exact ⟨congrArg Opening.opened hopen, hafter⟩

theorem Beside.reply (hh : Beside here b b' l l' h h') (ha : a ∈ here) (x : OpenCall) :
    (h'.reply a x).1 = (h.reply a x).1 ∧
      Beside here b b' l l' (h.reply a x).2 (h'.reply a x).2 := by
  unfold Hub.reply
  rw [hh.limit, hh.cluster ha]
  split
  · exact ⟨rfl, hh⟩
  · cases h.cluster a x.request.cluster with
    | error e => exact ⟨rfl, hh⟩
    | ok s => exact ⟨rfl, hh.update ha _ _⟩

theorem Beside.finish (hh : Beside here b b' l l' h h') (ha : a ∈ here) (x : OpenCall) :
    (h'.finish a x).1 = (h.finish a x).1 ∧
      Beside here b b' l l' (h.finish a x).2 (h'.finish a x).2 := by
  obtain ⟨hreply, hafter⟩ := hh.reply ha x
  refine ⟨congrArg (·.outcome x.request) hreply, ?_⟩
  exact hafter.write _ _

/-! ### Other devices -/

/-- A hub after something that took no time and had to do with no other device than one. -/
structure Touches (here : Option Address) (h h' : Hub) : Prop where
  now : h'.now = h.now
  limit : h'.limit = h.limit
  others : ∀ a ∉ here, h'.device? a = h.device? a

theorem Touches.rfl : Touches here h h := ⟨Eq.refl _, Eq.refl _, fun _ _ => Eq.refl _⟩

theorem Touches.trans {h'' : Hub} (h₁ : Touches here h h') (h₂ : Touches here h' h'') :
    Touches here h h'' :=
  ⟨h₂.now.trans h₁.now, h₂.limit.trans h₁.limit,
    fun a ha => (h₂.others a ha).trans (h₁.others a ha)⟩

theorem touches_write (h : Hub) (lines : Log) : Touches here h (h.write lines) :=
  ⟨rfl, rfl, fun _ _ => rfl⟩

theorem touches_update (h : Hub) (ha : a ∈ here) (c : Cluster) (f : ClusterState → ClusterState) :
    Touches here h (h.update a fun d => d.update (Device.place c) f) := by
  refine ⟨rfl, rfl, fun a' ha' => ?_⟩
  have hne : a ≠ a' := by
    rintro rfl
    exact ha' ha
  unfold device? Hub.update
  induction h.devices with
  | nil => rfl
  | cons d ds ih =>
    by_cases hd : d.address = a
    · simpa [hd, Device.update, hne] using ih
    · by_cases hd' : d.address = a'
      · simp [hd', Ne.symm hne]
      · simpa [hd, hd'] using ih

theorem touches_begin (h : Hub) (ha : a ∈ here) (q : Request) : Touches here h (h.begin a q).2 := by
  have hbegins := h.begins a q
  generalize h.begin a q = r at hbegins ⊢
  cases hbegins with
  | missing => exact .rfl
  | unfit => exact .rfl
  | refused => exact h.touches_write _
  | @opened s call =>
    have hupdate := (h.touches_write [q.line]).trans
      (touches_update (h.write [q.line]) ha q.cluster fun _ => s.react.2)
    exact ⟨hupdate.now, hupdate.limit, hupdate.others⟩

theorem touches_finish (h : Hub) (ha : a ∈ here) (x : OpenCall) :
    Touches here h (h.finish a x).2 := by
  have hreply : Touches here h (h.reply a x).2 := by
    unfold reply
    split
    · exact .rfl
    · split
      · exact .rfl
      · exact touches_update h ha _ _
  exact hreply.trans (touches_write _ _)

end Hub

/-! ### Activities -/

namespace Activity
variable {α : Type} {Absorbs : Request → Fault → Prop} {here : Option Address} {b b' : Nat}
  {l l' : List CallRecord} {h h' : Hub} {a : Address} {p p' : Procedure α} {x x' : Activity α}

/-- Two activities as long after two starts, which go on side by side. -/
inductive Twin (Absorbs : Request → Fault → Prop) (b b' : Nat) : Activity α → Activity α → Prop where
  | ended (outcome : Outcome α) : Twin Absorbs b b' (.ended outcome) (.ended outcome)
  | pausing (n : Nat) {rest rest' : Procedure α} (hrest : Steady Absorbs b b' rest rest') :
    Twin Absorbs b b' (.pausing (b + n) rest) (.pausing (b' + n) rest')
  | calling (n : Nat) (x : OpenCall) {next next' : Outcome Entries → Procedure α}
    (hnext : ∀ answer, Steady Absorbs b b' (next answer) (next' answer)) :
    Twin Absorbs b b' (.calling (b + n) x next) (.calling (b' + n) x next')

theorem start_twin (hp : Steady Absorbs b b' p p') (ha : a ∈ here)
    (hh : Hub.Beside here b b' l l' h h') :
    Twin Absorbs b b' (start a h p).1 (start a h' p').1 ∧
      Hub.Beside here b b' l l' (start a h p).2 (start a h' p').2 := by
  induction hp generalizing h h' with
  | done x => exact ⟨.ended _, hh⟩
  | fail e _ => exact ⟨.ended _, hh⟩
  | @exchange q Absorbed next next' few good absorbed bad ihgood ihabsorbed =>
    have hanswered : ∀ answer, Steady Absorbs b b' (next answer) (next' answer) :=
      (Regular.exchange q Absorbed few good absorbed bad).answered
    -- the hypotheses of the induction are about the answers after which both go on
    have hstart : ∀ (answer : Outcome Entries) {g g' : Hub}, Hub.Beside here b b' l l' g g' →
        Twin Absorbs b b' (start a g (next answer)).1 (start a g' (next' answer)).1 ∧
          Hub.Beside here b b' l l' (start a g (next answer)).2 (start a g' (next' answer)).2 := by
      intro answer g g' hg
      cases answer with
      | ok values => exact ihgood values hg
      | error e =>
        by_cases he : Absorbed e
        · exact ihabsorbed e he hg
        · obtain ⟨hnext, hnext'⟩ := bad e he
          rw [hnext, hnext']
          exact ⟨.ended _, hg⟩
    obtain ⟨hopening, hbegun⟩ := hh.begin ha q
    simp only [start]
    generalize h.begin a q = r at hopening hbegun ⊢
    generalize h'.begin a q = r' at hopening hbegun ⊢
    obtain ⟨opening, g⟩ := r
    obtain ⟨opening', g'⟩ := r'
    cases hopening
    cases opening with
    | closed outcome => exact hstart outcome hbegun
    | opened x =>
      dsimp only at hbegun ⊢
      rw [hbegun.duration x]
      split
      · obtain ⟨houtcome, hfinished⟩ := hbegun.finish ha x
        rw [houtcome]
        exact hstart _ hfinished
      · obtain ⟨n, hn, hn'⟩ := hbegun.now
        rw [hn, hn', Nat.add_assoc, Nat.add_assoc]
        exact ⟨.calling _ x hanswered, hbegun⟩
  | pause ms hrest _ =>
    obtain ⟨n, hn, hn'⟩ := hh.now
    simp only [start]
    rw [hn, hn', Nat.add_assoc, Nat.add_assoc]
    exact ⟨.pausing _ hrest, hh⟩
  | clock _ ih =>
    obtain ⟨n, hn, hn'⟩ := hh.now
    simp only [start]
    rw [hn, hn']
    exact ih n hh
  | log lines _ ih => exact ih (hh.write lines lines)

theorem resume_twin (hx : Twin Absorbs b b' x x') (ha : a ∈ here)
    (hh : Hub.Beside here b b' l l' h h') :
    Twin Absorbs b b' (x.resume a h).1 (x'.resume a h').1 ∧
      Hub.Beside here b b' l l' (x.resume a h).2 (x'.resume a h').2 := by
  cases hx with
  | ended outcome => exact ⟨.ended outcome, hh⟩
  | pausing n hrest => exact start_twin hrest ha hh
  | calling n x hnext =>
    obtain ⟨houtcome, hfinished⟩ := hh.finish ha x
    simp only [resume]
    rw [houtcome]
    exact start_twin (hnext _) ha hfinished

theorem touches_start (p : Procedure α) (ha : a ∈ here) (h : Hub) :
    h.Touches here (start a h p).2 := by
  induction p generalizing h with
  | done x => exact .rfl
  | fail e => exact .rfl
  | ask e next ih =>
    cases e with
    | exchange q =>
      have hbegin := h.touches_begin ha q
      simp only [start]
      split
      · next outcome g hb =>
        rw [hb] at hbegin
        exact hbegin.trans (ih _ g)
      · next x g hb =>
        rw [hb] at hbegin
        split
        · exact hbegin.trans ((g.touches_finish ha x).trans (ih _ _))
        · exact hbegin
    | pause ms => exact .rfl
    | clock => exact ih h.now h
    | log lines => exact (h.touches_write lines).trans (ih () _)

theorem touches_resume (x : Activity α) (ha : a ∈ here) (h : Hub) :
    h.Touches here (x.resume a h).2 := by
  cases x with
  | ended outcome => exact .rfl
  | pausing wake rest => exact touches_start rest ha h
  | calling wake x next => exact (h.touches_finish ha x).trans (touches_start _ ha _)

end Activity

end Commissioning

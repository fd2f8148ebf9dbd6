import Commissioning.Proofs.Device.Exchange
import Commissioning.Proofs.Device.Feed
import Commissioning.Proofs.Logged
import Commissioning.Proofs.Value.Showable
import Commissioning.Proofs.Zcl.Flattening

/-!
Reads are all or nothing. An answer tells what has been found and what has failed, the second part
perhaps left out; a read gives values only if nothing failed and every name was found, and then it
gives a plain value for each name and for no other:

    found                      {name: v, …}  ─┬─ all names found, nothing failed ──▶ {name: plain v}
    (found) [found, failed]    found, failed ─┴─ else ─────────────────────────────▶ incomplete

A cluster that is not there, that fails or that takes too long gives no values either.
-/
namespace Commissioning

namespace Zcl

/-- An element of data octets: its number stands first. -/
inductive DataElement : Value → Prop where
  | list (n : Int) (rest : List Value) : DataElement (.list (.int n :: rest))
  | tuple (n : Int) (rest : List Value) : DataElement (.tuple (.int n :: rest))
  | octets (b : UInt8) (rest : List UInt8) : DataElement (.bytes (b :: rest))

/-- A plain value, or an array whose elements are what its type asks for. -/
inductive WellFormed : Value → Prop where
  | null : WellFormed .null
  | bool (b : Bool) : WellFormed (.bool b)
  | int (n : Int) : WellFormed (.int n)
  | status (code : Int) : WellFormed (.status code)
  | float (x : Binary64) : WellFormed (.float x)
  | str (s : String) : WellFormed (.str s)
  | bytes (bs : List UInt8) : WellFormed (.bytes bs)
  | list {items : List Value} (h : ∀ v ∈ items, WellFormed v) : WellFormed (.list items)
  | tuple (items : List Value) : WellFormed (.tuple items)
  | dict (entries : Entries) : WellFormed (.dict entries)
  | data {elements : List Value} (h : ∀ v ∈ elements, DataElement v) :
    WellFormed (.array ElementType.data8.id elements)
  | array {type : Int} {elements : List Value} (htype : type ≠ ElementType.data8.id)
    (h : ∀ v ∈ elements, WellFormed v) : WellFormed (.array type elements)
  | empty (type : Int) : WellFormed (.typed type .null)
  | typedData {elements : List Value} (h : ∀ v ∈ elements, DataElement v) :
    WellFormed (.typed ElementType.data8.id (.list elements))
  | typed {type : Int} {elements : List Value} (htype : type ≠ ElementType.data8.id)
    (h : ∀ v ∈ elements, WellFormed v) : WellFormed (.typed type (.list elements))

theorem DataElement.exists_first {v : Value} (h : DataElement v) : ∃ n, firstInteger v = .ok n := by
  cases h with
  | list n rest => exact ⟨n, rfl⟩
  | tuple n rest => exact ⟨n, rfl⟩
  | octets b rest => exact ⟨b.toNat, rfl⟩

theorem exists_plainData {elements : List Value} (h : ∀ v ∈ elements, DataElement v) :
    ∃ w, plainData elements = .ok w := by
  obtain ⟨ns, hns⟩ := exists_mapM.mpr fun v hv => (h v hv).exists_first
  exact ⟨.list (ns.map .int), by rw [plainData, hns]; rfl⟩

/-- Whatever is well formed can be made plain. -/
theorem WellFormed.exists_plain {v : Value} (h : WellFormed v) : ∃ w, plain v = .ok w := by
  induction h with
  | null => exact ⟨.null, Flat.null.plain_eq⟩
  | bool b => exact ⟨.bool b, (Flat.bool b).plain_eq⟩
  | int n => exact ⟨.int n, (Flat.int n).plain_eq⟩
  | status code => exact ⟨.int code, by rw [plain]⟩
  | float x => exact ⟨.float x, (Flat.float x).plain_eq⟩
  | str s => exact ⟨.str s, (Flat.str s).plain_eq⟩
  | bytes bs => exact ⟨.ofOctets bs, by rw [plain]⟩
  | list _ ih =>
    obtain ⟨ws, hws⟩ := exists_plainItems ih
    exact ⟨.list ws, by rw [plain, hws]; rfl⟩
  | tuple items => exact ⟨.tuple items, (Flat.tuple items).plain_eq⟩
  | dict entries => exact ⟨.dict entries, (Flat.dict entries).plain_eq⟩
  | data helements =>
    obtain ⟨w, hw⟩ := exists_plainData helements
    exact ⟨w, by rw [plain, if_pos rfl, hw]⟩
  | array htype _ ih =>
    obtain ⟨ws, hws⟩ := exists_plainItems ih
    exact ⟨.list ws, by rw [plain, if_neg htype, hws]; rfl⟩
  | empty type => exact ⟨.list [], by rw [plain]⟩
  | typedData helements =>
    obtain ⟨w, hw⟩ := exists_plainData helements
    refine ⟨w, ?_⟩
    rw [plain, if_pos rfl]
    exact hw
  | typed htype _ ih =>
    obtain ⟨ws, hws⟩ := exists_plainItems ih
    exact ⟨.list ws, by rw [plain, if_neg htype, hws]; rfl⟩

end Zcl

namespace Reply
variable {c : Cluster} {found failed values start : Entries} {names : List String} {answer : Value}

/-- What the items of an answer tell: the first one is what has been found, the second one what has
failed, and either may be left out. -/
inductive ItemsTell : List Value → Entries → Entries → Prop where
  | nothing : ItemsTell [] [] []
  | found (found : Entries) : ItemsTell [.dict found] found []
  | both (found failed : Entries) (more : List Value) :
    ItemsTell (.dict found :: .dict failed :: more) found failed

/-- What an answer tells to have been found and to have failed. -/
inductive Tells : Value → Entries → Entries → Prop where
  | found (found : Entries) : Tells (.dict found) found []
  | list {items : List Value} {found failed : Entries} (h : ItemsTell items found failed) :
    Tells (.list items) found failed
  | tuple {items : List Value} {found failed : Entries} (h : ItemsTell items found failed) :
    Tells (.tuple items) found failed

theorem Tells.parts (h : Tells answer found failed) :
    parts answer = (.dict found, .dict failed) := by
  cases h with
  | found => rfl
  | list h => cases h <;> rfl
  | tuple h => cases h <;> rfl

theorem Tells.unique {found' failed' : Entries} (h : Tells answer found failed)
    (h' : Tells answer found' failed') : found = found' ∧ failed = failed' := by
  have hparts := h.parts.symm.trans h'.parts
  simpa using hparts

theorem hasName_dict (found : Entries) (name : String) :
    hasName (.dict found) name = .ok (found.get? name).isSome := by
  rw [hasName]
  congr 1
  rw [Bool.eq_iff_iff, List.any_eq_true, Option.isSome_iff_exists, ← Entries.mem_keys_iff,
    List.mem_map]
  exact exists_congr fun e => and_congr_right fun _ => beq_iff_eq

theorem missingNames_dict (found : Entries) (names : List String) :
    missingNames (.dict found) names = .ok (names.filter fun name => (found.get? name).isNone) := by
  induction names with
  | nil => rfl
  | cons name names ih =>
    rw [missingNames, hasName_dict, ih]
    cases hv : found.get? name with
    | none => simp [hv, bind, Except.bind, pure, Except.pure]
    | some v => simp [hv, bind, Except.bind, pure, Except.pure]

/-- Names that are all found, with values that can be made plain, are put one after the other. -/
theorem plainValues_dict
    (hfound : ∀ name ∈ names, ∃ v w, found.get? name = some v ∧ Zcl.plain v = .ok w)
    (start : Entries) : ∃ values, plainValues (.dict found) names start = .ok values ∧
      (∀ name ∈ names, ∃ v w, found.get? name = some v ∧ Zcl.plain v = .ok w ∧
        values.get? name = some w) ∧
      (∀ name, name ∉ names → values.get? name = start.get? name) ∧
      ((start.map Prod.fst).Nodup → (values.map Prod.fst).Nodup) := by
  induction names generalizing start with
  | nil => exact ⟨start, rfl, List.forall_mem_nil _, fun _ _ => rfl, id⟩
  | cons name names ih =>
    obtain ⟨⟨v, w, hv, hw⟩, hrest⟩ := List.forall_mem_cons.mp hfound
    obtain ⟨values, hvalues, hnames, hothers, hnodup⟩ := ih hrest (start.put name w)
    have hplain : plainOf (.dict found) name = .ok w := by
      rw [plainOf, ClusterCall.required, hv]
      exact hw
    refine ⟨values, ?_, ?_, ?_, fun hstart => hnodup (Entries.nodup_put hstart name w)⟩
    · rw [plainValues, hplain]
      exact hvalues
    · refine List.forall_mem_cons.mpr ⟨?_, hnames⟩
      -- a name that is asked for again is put again, and the last value counts
      by_cases hagain : name ∈ names
      · exact hnames name hagain
      · exact ⟨v, w, hv, hw, by rw [hothers name hagain, Entries.get?_put, if_pos rfl]⟩
    · intro other hother
      obtain ⟨hne, hother⟩ := not_or.mp (mt List.mem_cons.mpr hother)
      rw [hothers other hother, Entries.get?_put, if_neg hne]

/-- The values that a read gives: one for each name and for no other, each made plain. -/
structure Gives (found : Entries) (names : List String) (values : Entries) : Prop where
  nodup : (values.map Prod.fst).Nodup
  keys (name : String) : name ∈ values.map Prod.fst ↔ name ∈ names
  plain : ∀ name ∈ names, ∃ v w, found.get? name = some v ∧ Zcl.plain v = .ok w ∧
    values.get? name = some w

/-- Values that are all found and well formed are given. -/
theorem exists_gives (hall : ∀ name ∈ names, ∃ v, found.get? name = some v)
    (hformed : ∀ e ∈ found, Zcl.WellFormed e.2) :
    ∃ values, plainValues (.dict found) names [] = .ok values ∧ Gives found names values := by
  have hplain : ∀ name ∈ names, ∃ v w, found.get? name = some v ∧ Zcl.plain v = .ok w := by
    intro name hname
    obtain ⟨v, hv⟩ := hall name hname
    obtain ⟨w, hw⟩ := (hformed _ (mem_of_lookup hv)).exists_plain
    exact ⟨v, w, hv, hw⟩
  obtain ⟨values, hvalues, hnames, hothers, hnodup⟩ := plainValues_dict hplain []
  refine ⟨values, hvalues, hnodup List.nodup_nil, fun name => ?_, hnames⟩
  rw [Entries.mem_keys_iff]
  constructor
  · rintro ⟨w, hw⟩
    by_contra hname
    rw [hothers name hname, Entries.get?_nil] at hw
    cases hw
  · intro hname
    obtain ⟨v, w, -, -, hw⟩ := hnames name hname
    exact ⟨w, hw⟩

/-- What tells of failures can be shown if the failures can. -/
theorem isShowable_incomplete (c : Cluster) (missing : List String) {failed : Entries}
    (h : (Value.dict failed).isShowable) :
    (LinkError.incomplete c missing (failed.map fun e => (.str e.1, e.2))).isShowable := by
  have hvalues := Value.areShowableUnder_iff.mp h
  rw [LinkError.isShowable, List.all_map, List.all_eq_true]
  exact fun e he => hvalues e he

/-- An answer that tells of failures, or lacks a name, gives nothing; any other one gives all. -/
theorem attributes_of_tells (c : Cluster) (names : List String) (h : Tells answer found failed)
    (hformed : ∀ e ∈ found, Zcl.WellFormed e.2) :
    (failed = [] ∧ (∀ name ∈ names, ∃ v, found.get? name = some v) ∧
      ∃ values, attributes c names answer = .ok values ∧ Gives found names values) ∨
    (¬ (failed = [] ∧ ∀ name ∈ names, ∃ v, found.get? name = some v) ∧
      ∃ e, attributes c names answer = .error (Fault.link e).raised ∧
        ((Value.dict failed).isShowable → e.isShowable)) := by
  let missing := names.filter fun name => (found.get? name).isNone
  have hattributes : attributes c names answer =
      if (Value.dict failed).isTruthy || !missing.isEmpty then
        .error (Fault.link (.incomplete c missing (failed.map fun e => (.str e.1, e.2)))).raised
      else ofMismatch (plainValues (.dict found) names []) := by
    unfold attributes
    rw [h.parts]
    dsimp only
    rw [missingNames_dict]
    change (if _ then _ else _) = _
    rfl
  have hcomplete : ((Value.dict failed).isTruthy || !missing.isEmpty) = false ↔
      failed = [] ∧ ∀ name ∈ names, ∃ v, found.get? name = some v := by
    rw [Bool.or_eq_false_iff]
    refine and_congr ?_ ?_
    · simp [Value.isTruthy]
    · simp [missing, Option.ne_none_iff_exists']
  by_cases hall : failed = [] ∧ ∀ name ∈ names, ∃ v, found.get? name = some v
  · obtain ⟨values, hvalues, hgives⟩ := exists_gives hall.2 hformed
    refine .inl ⟨hall.1, hall.2, values, ?_, hgives⟩
    rw [hattributes, hcomplete.mpr hall, hvalues]
    rfl
  · refine .inr ⟨hall, ?_⟩
    have hincomplete : ((Value.dict failed).isTruthy || !missing.isEmpty) = true := by
      rw [← Bool.not_eq_false]
      exact mt hcomplete.mp hall
    rw [hattributes, if_pos hincomplete]
    exact ⟨_, rfl, isShowable_incomplete c missing⟩

end Reply

/-! ### A read from its start to its end -/

/-- What a cluster answers to a read, if it answers at all. -/
def ClusterState.answer (s : ClusterState) (names : List String) : Value :=
  match s.react.1.answer with
  | some v => v
  | none => (s.react.2.readAll names [] []).1

theorem ClusterState.reply_of_read {s : ClusterState} (hfailure : s.react.1.failure = none)
    (names : List String) (m : Option Int) :
    (s.react.2.reply (.read names m) s.react.1).1 = .read (s.answer names) := by
  simp only [ClusterState.reply, ClusterState.failure?_read, hfailure, ClusterState.answer]
  cases s.react.1.answer <;> rfl

namespace Hub
variable {h : Hub} {a : Address} {c : Cluster} {s : ClusterState} {names : List String}
  {name : String}

/-- A read that is answered in time comes out as its answer says. -/
theorem exchange_read_answered (hs : h.cluster a c = .ok s)
    (hlate : s.react.1.isLate h.limit = false) (hfailure : s.react.1.failure = none)
    (m : Option Int) :
    (h.exchange a (.read c names m)).1 = Reply.attributes c names (s.answer names) := by
  have hserve : (s.serve (.read names m) h.limit).1 = .read (s.answer names) := by
    rw [ClusterState.serve, hlate, if_neg Bool.false_ne_true,
      ClusterState.reply_of_read hfailure]
  rw [(exchange_served (q := .read c names m) hs rfl rfl).1, hserve]
  rfl

/-- The cluster of a name is there and answers within ten seconds. -/
inductive Answers (h : Hub) (a : Address) (name : String) (names : List String) : Value → Prop where
  | intro {c : Cluster} {s : ClusterState} (hname : Cluster.ofName? name = some c)
    (hs : h.cluster a c = .ok s) (hdelay : s.react.1.delay < 10000)
    (hfailure : s.react.1.failure = none) : Answers h a name names (s.answer names)

theorem Answers.unique {v w : Value} (hv : h.Answers a name names v)
    (hw : h.Answers a name names w) : v = w := by
  obtain ⟨hname, hs, -, -⟩ := hv
  obtain ⟨hname', hs', -, -⟩ := hw
  obtain rfl := Option.some.inj (hname.symm.trans hname')
  obtain rfl := Except.ok.inj (hs.symm.trans hs')
  rfl

/-- A read comes out as the answer of its cluster says, and fails if there is none. -/
theorem perform_read (hlimit : h.limit = defaultLimit) (m : Option Int) :
    let outcome := ((Procedure.onCluster (.str name) fun c => Procedure.read c names m).perform a h).1
    (∃ c v, h.Answers a name names v ∧ outcome = Reply.attributes c names v) ∨
    (∀ v, ¬ h.Answers a name names v) ∧ ∃ e, outcome = .error (.link e) := by
  intro outcome
  cases hname : Cluster.ofName? name with
  | none =>
    refine .inr ⟨?_, .unknownCluster (.str name), ?_⟩
    · rintro _ ⟨hname', -, -, -⟩
      rw [hname] at hname'
      cases hname'
    · simp only [outcome, Procedure.onCluster, hname]
      rfl
  | some c =>
    have houtcome : outcome = (h.exchange a (.read c names m)).1 := by
      simp only [outcome, Procedure.onCluster, hname, Procedure.read, Procedure.perform_send]
    rw [houtcome]
    cases hs : h.cluster a c with
    | error e =>
      refine .inr ⟨?_, e, ?_⟩
      · rintro _ ⟨hname', hs', -, -⟩
        obtain rfl := Option.some.inj (hname.symm.trans hname')
        rw [hs] at hs'
        cases hs'
      · rw [exchange_missing (q := .read c names m) hs]
    | ok s =>
      by_cases hanswered : s.react.1.delay < 10000 ∧ s.react.1.failure = none
      · obtain ⟨hdelay, hfailure⟩ := hanswered
        have hlate := Reaction.isLate_eq_false hlimit hdelay
        exact .inl ⟨c, _, .intro hname hs hdelay hfailure,
          exchange_read_answered hs hlate hfailure m⟩
      · refine .inr ⟨?_, ?_⟩
        · rintro _ ⟨hname', hs', hdelay, hfailure⟩
          obtain rfl := Option.some.inj (hname.symm.trans hname')
          obtain rfl := Except.ok.inj (hs.symm.trans hs')
          exact hanswered ⟨hdelay, hfailure⟩
        · have hlost : s.react.1.isLate h.limit ∨ s.react.1.failure.isSome := by
            by_cases hdelay : s.react.1.delay < 10000
            · exact .inr (Option.isSome_iff_ne_none.mpr fun hnone => hanswered ⟨hdelay, hnone⟩)
            · exact .inl (Reaction.isLate_eq_true hlimit (Nat.not_lt.mp hdelay))
          obtain ⟨cause, hcause⟩ :=
            exchange_unanswered (q := .read c names m) hs rfl rfl
              (by rwa [ClusterState.failure?_read])
          exact ⟨_, hcause⟩

/-- A read takes ten seconds at most, whatever comes of it. -/
theorem perform_read_inTime (hlimit : h.limit = defaultLimit) (m : Option Int) :
    ((Procedure.onCluster (.str name) fun c => Procedure.read c names m).perform a h).2.now ≤
      h.now + 10000 := by
  unfold Procedure.onCluster
  dsimp only
  split
  · next c _ =>
    obtain ⟨latency, hlatency, hnow, -⟩ := h.exchange_time a (.read c names m)
    rw [Procedure.read, Procedure.perform_send, hnow]
    rw [hlimit] at hlatency
    exact Nat.add_le_add_left hlatency h.now
  · exact Nat.le_add_right h.now 10000

end Hub

/-- A read gives all that was asked for, or fails as an exchange with the device; it takes ten
seconds at most. A failure is told with what the cluster tells about failures, which are statuses;
only if one of them could not be shown would that be the failure. -/
theorem read_all_or_nothing {h : Hub} {a : Address} {name : String} {names : List String}
    {m : Option Int} (hlimit : h.limit = Hub.defaultLimit)
    (hformed : ∀ v, h.Answers a name names v → ∃ found failed, Reply.Tells v found failed ∧
      ∀ e ∈ found, Zcl.WellFormed e.2) :
    let read := (Procedure.onCluster (.str name) fun c => Procedure.read c names m).perform a h
    let Granted (found : Entries) := ∃ v, h.Answers a name names v ∧ Reply.Tells v found [] ∧
      ∀ name ∈ names, ∃ w, found.get? name = some w
    let Fails (e : Fault) := e.category = .transport ∨ e = .mismatch .unwritable ∧
      ∃ v found failed, h.Answers a name names v ∧ Reply.Tells v found failed ∧
        (Value.dict failed).isShowable = false
    ((∃ values, read.1 = .ok values) ↔ ∃ found, Granted found) ∧
    (∀ values, read.1 = .ok values → ∃ found, Granted found ∧ Reply.Gives found names values) ∧
    ((¬ ∃ found, Granted found) → ∃ e, read.1 = .error e ∧ Fails e) ∧
    read.2.now ≤ h.now + 10000 := by
  intro read Granted Fails
  have hcases : (∃ found values, Granted found ∧ read.1 = .ok values ∧
      Reply.Gives found names values) ∨
      (¬ ∃ found, Granted found) ∧ ∃ e, read.1 = .error e ∧ Fails e := by
    rcases Hub.perform_read hlimit m with ⟨c, v, hanswers, houtcome⟩ | ⟨hnone, e, houtcome⟩
    · obtain ⟨found, failed, htells, hfound⟩ := hformed v hanswers
      rcases Reply.attributes_of_tells c names htells hfound with
        ⟨rfl, hall, values, hvalues, hgives⟩ | ⟨hlacks, e, herror, hshown⟩
      · exact .inl ⟨found, values, ⟨v, hanswers, htells, hall⟩, houtcome.trans hvalues, hgives⟩
      · refine .inr ⟨?_, _, houtcome.trans herror, ?_⟩
        · rintro ⟨found', v', hanswers', htells', hall'⟩
          obtain rfl := hanswers.unique hanswers'
          obtain ⟨rfl, rfl⟩ := htells.unique htells'
          exact hlacks ⟨rfl, hall'⟩
        · rcases Fault.raised_cases (.link e) with ⟨hraised, -⟩ | ⟨hraised, hhidden⟩
          · exact .inl (congrArg Fault.category hraised)
          · refine .inr ⟨hraised, v, found, failed, hanswers, htells, Bool.eq_false_iff.mpr ?_⟩
            intro hfailed
            cases hhidden.symm.trans (hshown hfailed)
    · refine .inr ⟨?_, _, houtcome, .inl rfl⟩
      rintro ⟨found, v, hanswers, -⟩
      exact hnone v hanswers
  refine ⟨?_, ?_, ?_, Hub.perform_read_inTime hlimit m⟩
  · rcases hcases with ⟨found, values, hgranted, hread, -⟩ | ⟨hnone, e, hread, -⟩
    · exact ⟨fun _ => ⟨found, hgranted⟩, fun _ => ⟨values, hread⟩⟩
    · rw [hread]
      exact ⟨nofun, fun hgranted => absurd hgranted hnone⟩
  · intro values hvalues
    rcases hcases with ⟨found, values', hgranted, hread, hgives⟩ | ⟨-, e, hread, -⟩
    · obtain rfl := Except.ok.inj (hread.symm.trans hvalues)
      exact ⟨found, hgranted, hgives⟩
    · cases hread.symm.trans hvalues
  · intro hnone
    rcases hcases with ⟨found, values, hgranted, -⟩ | ⟨-, e, hread, hfails⟩
    · exact absurd ⟨found, hgranted⟩ hnone
    · exact ⟨e, hread, hfails⟩

/-- Two arrays and an attribute that was not asked for, told at the last moment; the name of one array
is asked for twice. -/
theorem read_all_or_nothing_arrays :
    let a : Address := ⟨List.replicate 16 '0'⟩
    let names := ["input_configurations", "input_actions", "input_configurations"]
    let found : Entries := [
      ("input_configurations", .array 8 [.list [.int 0], .list [.int 255]]),
      ("input_actions", .array 0x41 [.bytes [0, 13]]), ("cluster_revision", .int 1)]
    let reaction : Reaction := { delay := 9999, answer := some (.list [.dict found]) }
    let hub := Hub.single a [(.deviceSetup, { script := [reaction] })]
    ∃ values, ((Procedure.onCluster (.str "device_setup") fun c =>
        Procedure.read c names none).perform a hub).1 = .ok values ∧
      (∀ name, name ∈ values.map Prod.fst ↔ name ∈ names) ∧
      values.get? "input_configurations" = some (.list [.int 0, .int 255]) ∧
      values.get? "input_actions" = some (.list [.list [.int 0, .int 13]]) := by
  intro a names found reaction hub
  have hanswers : hub.Answers a "device_setup" names (.list [.dict found]) :=
    .intro (s := { script := [reaction] }) (c := .deviceSetup) rfl (Hub.cluster_single rfl)
      (by decide) rfl
  have htells : Reply.Tells (.list [.dict found]) found [] := .list (.found found)
  have hfound : ∀ e ∈ found, Zcl.WellFormed e.2 := by
    simp only [found, List.forall_mem_cons]
    refine ⟨.data ?_, .array (by decide) ?_, .int 1, List.forall_mem_nil _⟩
    · simp only [List.forall_mem_cons]
      exact ⟨.list 0 [], .list 255 [], List.forall_mem_nil _⟩
    · exact List.forall_mem_singleton.mpr (.bytes _)
  have hformed : ∀ v, hub.Answers a "device_setup" names v → ∃ found failed,
      Reply.Tells v found failed ∧ ∀ e ∈ found, Zcl.WellFormed e.2 := by
    intro v hv
    obtain rfl := hv.unique hanswers
    exact ⟨found, [], htells, hfound⟩
  have hall : ∀ name ∈ names, ∃ w, found.get? name = some w := by
    simp only [names, List.forall_mem_cons]
    exact ⟨⟨_, rfl⟩, ⟨_, rfl⟩, ⟨_, rfl⟩, List.forall_mem_nil _⟩
  obtain ⟨hread, hgives, -, -⟩ := read_all_or_nothing (m := none) rfl hformed
  obtain ⟨values, hvalues⟩ := hread.mpr ⟨found, _, hanswers, htells, hall⟩
  obtain ⟨found', ⟨v, hv, htells', -⟩, hgiven⟩ := hgives values hvalues
  obtain rfl := hv.unique hanswers
  obtain ⟨rfl, -⟩ := htells.unique htells'
  refine ⟨values, hvalues, hgiven.keys, ?_, ?_⟩
  · obtain ⟨v, w, hget, hplain, hvalue⟩ := hgiven.plain "input_configurations" (by decide)
    cases hget
    cases hplain
    exact hvalue
  · obtain ⟨v, w, hget, hplain, hvalue⟩ := hgiven.plain "input_actions" (by decide)
    cases hget
    cases hplain
    exact hvalue

end Commissioning

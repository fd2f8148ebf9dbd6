import Commissioning.Proofs.Device.Wired
import Commissioning.Proofs.DeviceSetup.Wire
import Commissioning.Proofs.Firmware.Version

/-!
What the setup cluster keeps after it has been configured, and what is read back. On a device that
accepts every call each payload replaces its array, rows from templates replace raw rows, and an
array without a payload stays as it is. The firmware decides on the form of the writes only:

                        ┌─ structured ─┐
    payloads ── build ──┤              ├──▶ arrays ──▶ plain octets, decoded rows
                        └─── plain ────┘

Arrays reach a device by the wire, so this is so for rows that have a place there. A longer row is the
end of a run in which the flags have been written.
-/
namespace Commissioning.DeviceSetup
open Procedure

/-- The flags of the inputs in the end and their array: those given, else those from before. -/
inductive FinalFlags (payload array₀ : Value) (flags₀ : List UInt8) :
    Value → List UInt8 → Prop where
  | kept (h : payload = .null) : FinalFlags payload array₀ flags₀ array₀ flags₀
  | given {vs : List Value} {flags : List UInt8} (h : payload = .list vs) (hn : Numbers vs flags) :
    FinalFlags payload array₀ flags₀ (flagArray vs) flags

/-- The rows in the end and their array: those that templates compile to, else those given, else
those from before. -/
inductive FinalRows (model actions templates array₀ : Value) (rows₀ : List (List UInt8)) :
    Value → List (List UInt8) → Prop where
  | kept (ha : actions = .null) (ht : templates = .null) :
    FinalRows model actions templates array₀ rows₀ array₀ rows₀
  | given {vs : List Value} {rows : List (List UInt8)} (ha : actions = .list vs)
    (ht : templates = .null) (hr : List.Forall₂ RowHas vs rows) :
    FinalRows model actions templates array₀ rows₀ (rowArray rows) rows
  | compiled {bindings : List InputAction} {rows : List (List UInt8)}
    (h : (compileInputActions templates model).outcome = .ok bindings) (ht : ¬ templates.isNull)
    (hr : List.Forall₂ (fun b bs => b.octets = .ok bs) bindings rows) :
    FinalRows model actions templates array₀ rows₀ (rowArray rows) rows

/-- The two arrays among the values of the cluster, and what they are read as. -/
structure HasArrays (values : Entries) (flagsArray rowsArray : Value) (flags : List UInt8)
    (rows : List (List UInt8)) : Prop where
  getFlags : values.get? ArrayAttribute.configurations.name = some flagsArray
  plainFlags : Zcl.plain flagsArray = .ok (.ofOctets flags)
  getRows : values.get? ArrayAttribute.actions.name = some rowsArray
  plainRows : Zcl.plain rowsArray = .ok (.list (rows.map .ofOctets))

namespace HasArrays
variable {values : Entries} {flagsArray rowsArray array : Value} {flags octets : List UInt8}
  {rows table : List (List UInt8)}

/-- Other flags leave the rows alone. -/
theorem putFlags (h : HasArrays values flagsArray rowsArray flags rows)
    (hplain : Zcl.plain array = .ok (.ofOctets octets)) :
    HasArrays (values.put ArrayAttribute.configurations.name array) array rowsArray octets rows where
  getFlags := by rw [Entries.get?_put, if_pos rfl]
  plainFlags := hplain
  getRows := by
    rw [Entries.get?_put, if_neg (by decide)]
    exact h.getRows
  plainRows := h.plainRows

/-- Other rows leave the flags alone. -/
theorem putRows (h : HasArrays values flagsArray rowsArray flags rows)
    (hplain : Zcl.plain array = .ok (.list (table.map .ofOctets))) :
    HasArrays (values.put ArrayAttribute.actions.name array) flagsArray array flags table where
  getFlags := by
    rw [Entries.get?_put, if_neg (by decide)]
    exact h.getFlags
  plainFlags := h.plainFlags
  getRows := by rw [Entries.get?_put, if_pos rfl]
  plainRows := hplain

end HasArrays

/-! ### Writes -/

/-- The values of the cluster before and after a payload has been written, if it is given. -/
inductive Written (target : ArrayAttribute) : Value → Entries → Entries → Prop where
  | nothing (values : Entries) : Written target .null values values
  | array {vs : List Value} {array : Value} (values : Entries)
    (h : Zcl.buildArray target.elementType (.list (vs.map ArrayWrite.element)) = .ok array)
    (hwire : ∃ octets, Zcl.wire array = .ok octets) :
    Written target (.list vs) values (values.put target.name array)

variable {a : Address} {level : Level} {structured : Bool} {target : ArrayAttribute}
  {payload : Value} {values mid after : Entries}

theorem leads_writePayload (h : Written target payload values after) :
    Leads a .deviceSetup (writePayload level structured target payload) values (.ok ()) after := by
  cases h with
  | nothing => exact leads_pure
  | @array vs array values harray hwire =>
    let w : ArrayWrite := ⟨target, vs.map ArrayWrite.element, structured⟩
    have hbuild : ArrayWrite.build target (.list vs) structured = .ok w := rfl
    refine leads_bind (leads_ofMismatch hbuild) ?_
    exact leads_bind (leads_sendWrite (w := w) harray hwire) (leads_note _ _ _)

/-- The values after flags have been written. -/
theorem written_flags {vs : List Value} {flags : List UInt8} (h : Numbers vs flags)
    (hserial : Serial .configurations vs) (values : Entries) : Written .configurations (.list vs)
      values (values.put ArrayAttribute.configurations.name (flagArray vs)) := by
  have hbuild := buildArray_flags h
  exact .array values hbuild ((serial_iff hbuild).mp hserial)

/-- The values after rows have been written. -/
theorem written_rows {vs : List Value} {rows : List (List UInt8)}
    (h : List.Forall₂ (fun v bs => (ArrayWrite.element v).toOctets = .ok bs) vs rows)
    (hserial : Serial .actions vs) (values : Entries) : Written .actions (.list vs) values
      (values.put ArrayAttribute.actions.name (rowArray rows)) := by
  have hbuild := buildArray_rows h
  exact .array values hbuild ((serial_iff hbuild).mp hserial)

section Final
variable {payloads : Payloads} {model compiled flagsArray₀ rowsArray₀ flagsArray rowsArray : Value}
  {flags₀ flags : List UInt8} {rows₀ rows : List (List UInt8)} (hgood : payloads.Good model compiled)
  (hcount : payloads.Countable compiled)
include hgood hcount

/-- What becomes of the flags. -/
theorem exists_flags (h : HasArrays values flagsArray₀ rowsArray flags₀ rows) :
    ∃ after array octets, Written .configurations payloads.configurations values after ∧
      FinalFlags payloads.configurations flagsArray₀ flags₀ array octets ∧
      HasArrays after array rowsArray octets rows := by
  rcases carried_configurations hgood hcount with hnull | ⟨vs, hvs, hserial⟩
  · exact ⟨values, flagsArray₀, flags₀, hnull ▸ .nothing values, .kept hnull, h⟩
  · obtain ⟨octets, hoctets⟩ := exists_numbers (hgood.octets hvs)
    exact ⟨_, flagArray vs, octets, hvs ▸ written_flags hoctets hserial values,
      .given hvs hoctets, h.putFlags (plain_flags hoctets)⟩

/-- What becomes of the rows through raw ones. -/
theorem exists_rawRows (hshort : payloads.Short)
    (h : HasArrays values flagsArray rowsArray₀ flags rows₀) :
    ∃ after array table, Written .actions payloads.actions values after ∧
      FinalRows model payloads.actions .null rowsArray₀ rows₀ array table ∧
      HasArrays after flagsArray array flags table := by
  rcases (carried_actions hgood hcount).mpr hshort with hnull | ⟨vs, hvs, hserial⟩
  · exact ⟨values, rowsArray₀, rows₀, hnull ▸ .nothing values, .kept hnull rfl, h⟩
  · obtain ⟨table, htable⟩ := exists_forall₂ fun v hv => exists_row (hgood.rows hvs v hv)
    have hhas : List.Forall₂ RowHas vs table := htable.imp fun _ _ hv => hv.1
    have hwritten := written_rows (htable.imp fun _ _ hv => hv.2) hserial values
    exact ⟨_, rowArray table, table, hvs ▸ hwritten, .given hvs rfl hhas, h.putRows (plain_rows table)⟩

/-- What becomes of rows through compiled ones, which replace them. -/
theorem exists_compiledRows
    (hraw : FinalRows model payloads.actions .null rowsArray₀ rows₀ rowsArray rows)
    (h : HasArrays values flagsArray rowsArray flags rows) :
    ∃ after array table, Written .actions compiled values after ∧
      FinalRows model payloads.actions payloads.templates rowsArray₀ rows₀ array table ∧
      HasArrays after flagsArray array flags table := by
  have hcompiles := hgood.compiles
  by_cases hnull : payloads.templates.isNull
  · have htemplates : payloads.templates = .null := Value.isNull_iff.mp hnull
    rw [htemplates] at hcompiles ⊢
    cases hcompiles
    exact ⟨values, rowsArray, rows, .nothing values, hraw, h⟩
  · obtain ⟨bindings, hbindings, rfl⟩ := (compilePayload_eq_ok hnull).mp hcompiles
    obtain ⟨table, htable⟩ := exists_octets_of_compile hbindings
    obtain ⟨vs, hvs, hserial⟩ := (carried_compiled hgood hcount).resolve_left nofun
    cases hvs
    exact ⟨_, rowArray table, table, written_rows (elements_toValue htable) hserial values,
      .compiled hbindings hnull htable, h.putRows (plain_rows table)⟩

end Final

/-! ### Reading back -/

/-- What is reported about flags and rows. -/
def report (flags : List UInt8) (rows : List (List UInt8)) (decoded : List DecodedAction) :
    Entries := [
  (Attribute.inputConfigurations, .ofOctets flags),
  (Attribute.inputActions, .list (rows.map .ofOctets)),
  ("decoded_input_actions", .list (decoded.map fun d => .dict d.entries))]

variable {flagsArray rowsArray : Value} {flags : List UInt8} {rows : List (List UInt8)}
  {decoded : List DecodedAction}

theorem leads_read (h : HasArrays values flagsArray rowsArray flags rows)
    (hdecoded : (DecodedAction.ofRows (rows.map .ofOctets)).outcome = .ok decoded) :
    Leads a .deviceSetup DeviceSetup.read values (.ok (report flags rows decoded)) values := by
  refine leads_bind (Procedure.leads_read h.getFlags h.plainFlags none) ?_
  refine leads_bind (Procedure.leads_read h.getRows h.plainRows none) ?_
  have hitems : (rows.map Value.ofOctets).mapM (fun row => row.items.map .list) =
      (.ok (rows.map .ofOctets) : Except Mismatch (List Value)) := by
    refine mapM_eq_ok.mpr ?_
    rw [List.forall₂_map_left_iff, List.forall₂_map_right_iff, List.forall₂_same]
    exact fun _ _ => rfl
  refine leads_bind (leads_ofMismatch (x := rows.map Value.ofOctets) ?_) ?_
  · change (payloadItems (.list (rows.map .ofOctets)) >>= fun items =>
      items.mapM fun row => row.items.map Value.list) = _
    rw [payloadItems_list]
    exact hitems
  refine leads_bind (leads_ofMismatch (payloadItems_list _)) ?_
  refine leads_bind (hdecoded ▸ leads_ofLogged _) leads_pure

theorem leads_readBack {start : Nat} (h : HasArrays values flagsArray rowsArray flags rows)
    (hdecoded : (DecodedAction.ofRows (rows.map .ofOctets)).outcome = .ok decoded) :
    Leads a .deviceSetup (readBack level start) values (.ok (report flags rows decoded)) values :=
  leads_bind (leads_read h hdecoded) <|
    leads_clock_bind fun _ => leads_bind (leads_note _ _ _) leads_pure

/-- The rows of a table are read one after the other. -/
theorem exists_decoded (rows : List (List UInt8)) : ∃ decoded,
    (DecodedAction.ofRows (rows.map .ofOctets)).outcome = .ok decoded ∧
      decoded.map Except.ok = (DecodedAction.complete rows).map DecodedAction.ofOctets := by
  refine DecodedAction.ofRows_outcome ?_
  rw [List.forall₂_map_left_iff, List.forall₂_same]
  exact fun bs _ => toOctets_ofOctets bs

/-! ### The build identifier -/

/-- The build identifier that the form of the writes is chosen by: the one that is given, else what
the device tells about its firmware, if it tells anything. -/
inductive UsesBuild (h : Hub) (a : Address) : Value → Value → Prop where
  | given {build : Value} (hbuild : ¬ build.isNull) : UsesBuild h a build build
  | told {values : Entries}
    (hread : (h.exchange a (.read .basic [Attribute.softwareBuild] none)).1 = .ok values) :
    UsesBuild h a .null (if (values.get Attribute.softwareBuild).isTruthy then
      .str (values.get Attribute.softwareBuild).toText else .null)
  | untold {e : LinkError}
    (hread : (h.exchange a (.read .basic [Attribute.softwareBuild] none)).1 = .error (.link e)) :
    UsesBuild h a .null .null

variable {h : Hub} {model build used compiled : Value} {payloads : Payloads} {verbose : Bool}

theorem UsesBuild.write (hused : UsesBuild h a build used) (lines : Log) :
    UsesBuild (h.write lines) a build used := by
  cases hused with
  | given hbuild => exact .given hbuild
  | told hread => exact .told ((h.exchange_write lines a _).trans hread)
  | untold hread => exact .untold ((h.exchange_write lines a _).trans hread)

theorem perform_buildFor (hh : h.Holds a .deviceSetup values) (hused : UsesBuild h a build used) :
    ∃ h', (buildFor build).perform a h = (.ok used, h') ∧ h'.Holds a .deviceSetup values := by
  have hheld : (h.exchange a (.read .basic [Attribute.softwareBuild] none)).2.Holds a .deviceSetup
      values := hh.of_ne (by decide)
  cases hused with
  | given hbuild =>
    refine ⟨h, ?_, hh⟩
    rw [buildFor, if_neg hbuild]
    rfl
  | told hread =>
    refine ⟨_, ?_, hheld⟩
    change Procedure.perform a h readBuild = _
    rw [readBuild, perform_exchange, hread]
    rfl
  | @untold e hread =>
    let lines : Log := [⟨.warning, "Could not read firmware build ID: " ++ (Fault.link e).message⟩]
    refine ⟨_, ?_, hheld.write lines⟩
    change Procedure.perform a h readBuild = _
    rw [readBuild, perform_exchange, hread]
    rfl

/-! ### A device with the setup cluster -/

/-- A hub with one device, which tells a build identifier and keeps the values of its setup cluster,
behind a wire. -/
def station (a : Address) (build : Value) (values : Entries) : Hub where
  now := 0
  limit := Hub.defaultLimit
  devices := [{
    address := a
    label := a.text
    model := .null
    clusters := [(Device.place .basic, { values := [(Attribute.softwareBuild, build)] }),
      (Device.place .deviceSetup, { values, wired := true })]
    endpoints := [Cluster.basic.endpoint, Cluster.deviceSetup.endpoint] }]
  calls := []
  log := []

theorem station_eq (a : Address) (build : Value) (values : Entries) : station a build values =
    Hub.single a [(.basic, { values := [(Attribute.softwareBuild, build)] }),
      (.deviceSetup, { values, wired := true })] := rfl

theorem station_holds (a : Address) (build : Value) (values : Entries) :
    (station a build values).Holds a .basic [(Attribute.softwareBuild, build)] ∧
      (station a build values).Holds a .deviceSetup values := by
  rw [station_eq]
  exact ⟨Hub.holds_single (s := { values := [(Attribute.softwareBuild, build)] }) rfl
      ⟨rfl, List.forall_mem_nil _⟩,
    Hub.holds_single (s := { values, wired := true }) rfl ⟨rfl, List.forall_mem_nil _⟩⟩

theorem station_wired (a : Address) (build : Value) (values : Entries) :
    (station a build values).Wired a .deviceSetup := by
  rw [station_eq]
  exact ⟨_, Hub.cluster_single rfl, rfl⟩

/-- The identifier of a station is the one that is used. -/
theorem station_usesBuild (a : Address) {s : String} (hs : (Value.str s).isTruthy)
    (values : Entries) : UsesBuild (station a (.str s) values) a .null (.str s) := by
  have hget : Entries.get? [(Attribute.softwareBuild, .str s)] Attribute.softwareBuild =
      some (.str s) := by
    rw [Entries.get?_cons, if_pos rfl]
  obtain ⟨h', hrun, -⟩ := Procedure.leads_read hget (w := .str s) rfl none _
    (station_holds a (.str s) values).1
  rw [Procedure.read, perform_send] at hrun
  have hused := UsesBuild.told (congrArg Prod.fst hrun)
  have hfound : Entries.get [(Attribute.softwareBuild, .str s)] Attribute.softwareBuild =
      .str s := rfl
  rw [hfound, if_pos hs] at hused
  exact hused

/-! ### The whole configuration -/

/-- Good payloads are carried out as the build identifier has it, on a device that is as before. -/
theorem exists_carryOut (verbose : Bool) (hgood : payloads.Good model compiled)
    (hh : h.Holds a .deviceSetup values) (hused : UsesBuild h a build used) :
    ∃ start h', (configure model build payloads verbose).perform a h =
        (carryOut model payloads compiled (Level.ofVerbose verbose) start used).perform a h' ∧
      h'.Holds a .deviceSetup values ∧
      (h.Wired a .deviceSetup → h'.Wired a .deviceSetup) := by
  let lines := (compilePayload model payloads.templates).log
  obtain ⟨h', hbuild, hh'⟩ := perform_buildFor (hh.write lines) (hused.write lines)
  have hcompile : (ofLogged (compilePayload model payloads.templates)).perform a h =
      (.ok compiled, h.write lines) := by
    rw [perform_ofLogged, hgood.compiles]
  have hwired (hw : (h.write lines).Wired a .deviceSetup) : h'.Wired a .deviceSetup := by
    have hwired' := hw.perform (buildFor build)
    rwa [hbuild] at hwired'
  refine ⟨h.now, h', ?_, hh', hwired⟩
  rw [configure_eq, hgood.checked]
  exact (perform_bind_ok hcompile).trans (perform_bind_ok hbuild)

theorem perform_configure {r : Outcome Entries} (hgood : payloads.Good model compiled)
    (hh : h.Holds a .deviceSetup values) (hused : UsesBuild h a build used)
    (hrest : ∀ start, Leads a .deviceSetup
      (carryOut model payloads compiled (Level.ofVerbose verbose) start used) values r after) :
    ∃ h', (configure model build payloads verbose).perform a h = (r, h') ∧
      h'.Holds a .deviceSetup after := by
  obtain ⟨start, h₁, hrun, hh₁, -⟩ := exists_carryOut verbose hgood hh hused
  obtain ⟨h₂, hrun', hh₂⟩ := hrest start h₁ hh₁
  exact ⟨h₂, hrun.trans hrun', hh₂⟩

theorem leads_carryOut {level : Level} {start : Nat} {structured : Bool} {mid mid' : Entries}
    (hgate : (supportsStructuredWrite used).outcome = .ok structured)
    (hconfigurations : Written .configurations payloads.configurations values mid)
    (hactions : Written .actions payloads.actions mid mid')
    (hcompiled : Written .actions compiled mid' after)
    (harrays : HasArrays after flagsArray rowsArray flags rows)
    (hdecoded : (DecodedAction.ofRows (rows.map .ofOctets)).outcome = .ok decoded) :
    Leads a .deviceSetup (carryOut model payloads compiled level start used) values
      (.ok (report flags rows decoded)) after := by
  refine leads_bind (hgate ▸ leads_ofLogged _) (leads_bind (leads_note _ _ _) ?_)
  have hwrites : Leads a .deviceSetup (writeAll level structured payloads compiled) values (.ok ())
      after :=
    leads_bind (leads_writePayload hconfigurations) <|
      leads_bind (leads_writePayload hactions) (leads_writePayload hcompiled)
  exact leads_bind hwrites (leads_readBack harrays hdecoded)

/-- Each array ends with what is given for it, the report tells what both are read as, and the form
of the writes has no say in either. Where the numbers of the version are too long to be compared,
nothing is written. -/
theorem configured_read_back {before : Entries} {v₀ w₀ : Value} {flags₀ : List UInt8}
    {rows₀ : List (List UInt8)} (hgood : payloads.Good model compiled)
    (hcount : payloads.Countable compiled) (hshort : payloads.Short)
    (hbefore : HasArrays before v₀ w₀ flags₀ rows₀) :
    ∃ v w flags rows decoded after,
      FinalFlags payloads.configurations v₀ flags₀ v flags ∧
      FinalRows model payloads.actions payloads.templates w₀ rows₀ w rows ∧
      HasArrays after v w flags rows ∧
      decoded.map Except.ok = (DecodedAction.complete rows).map DecodedAction.ofOctets ∧
      ∀ (h : Hub) (a : Address) (build used : Value) (verbose : Bool),
        h.Holds a .deviceSetup before → UsesBuild h a build used →
        (∀ structured, (supportsStructuredWrite used).outcome = .ok structured →
          ∃ h', (configure model build payloads verbose).perform a h =
            (.ok (report flags rows decoded), h') ∧ h'.Holds a .deviceSetup after) ∧
        ∀ e, (supportsStructuredWrite used).outcome = .error e →
          (∃ v n, (Version.ofValue used).outcome = .ok (some v) ∧ n ∈ v.numbers ∧
            Number.digitLimit < (Nat.toDigits 10 n).length ∧
            e = .mismatch (.tooManyDigits (Nat.toDigits 10 n).length)) ∧
          ∃ h', (configure model build payloads verbose).perform a h = (.error e, h') ∧
            h'.Holds a .deviceSetup before := by
  obtain ⟨mid, v, flags, hconfigurations, hflags, hmid⟩ := exists_flags hgood hcount hbefore
  obtain ⟨mid', raw, rawRows, hactions, hraw, hmid'⟩ := exists_rawRows hgood hcount hshort hmid
  obtain ⟨after, w, rows, hcompiled, hrows, harrays⟩ := exists_compiledRows hgood hcount hraw hmid'
  obtain ⟨decoded, hdecoded, hmap⟩ := exists_decoded rows
  refine ⟨v, w, flags, rows, decoded, after, hflags, hrows, harrays, hmap, ?_⟩
  intro h a build used verbose hh hused
  constructor
  · intro structured hgate
    exact perform_configure hgood hh hused fun _ =>
      leads_carryOut hgate hconfigurations hactions hcompiled harrays hdecoded
  · intro e hgate
    refine ⟨supportsStructuredWrite_error hgate, perform_configure hgood hh hused fun _ => ?_⟩
    exact leads_bind_error (hgate ▸ leads_ofLogged _)

/-- Two flags and a row, written in the structured form. -/
theorem configured_read_back_structured :
    let a : Address := ⟨List.replicate Address.length '1'⟩
    let row : List UInt8 := [0, 13, 2, 6, 0, 2]
    let payloads : Payloads := {
      configurations := .list [.int 0, .int 255]
      actions := .list [.ofOctets row] }
    let before : Entries := [(ArrayAttribute.configurations.name, flagArray []),
      (ArrayAttribute.actions.name, rowArray [])]
    let hub := station a (.str "1.9.0") before
    payloads.Good .null .null ∧ payloads.Countable .null ∧ payloads.Short ∧
    HasArrays before (flagArray []) (rowArray []) [] [] ∧
    hub.Holds a .deviceSetup before ∧ UsesBuild hub a .null (.str "1.9.0") ∧
    (supportsStructuredWrite (.str "1.9.0")).outcome = .ok true ∧
    ∃ decoded after h', (configure .null .null payloads false).perform a hub =
        (.ok (report [0, 255] [row] decoded), h') ∧ decoded.length = 1 ∧
      h'.Holds a .deviceSetup after ∧
      after.get? ArrayAttribute.actions.name = some (rowArray [row]) := by
  intro a row payloads before hub
  have hgood : payloads.Good .null .null := ⟨.inr ⟨_, rfl⟩, .inr ⟨_, rfl⟩, rfl, rfl⟩
  have hcount : payloads.Countable .null := by
    refine ⟨fun vs hvs => ?_, fun vs hvs => ?_, fun vs hvs => ?_⟩
    all_goals cases hvs
    all_goals decide
  have hshort : payloads.Short := by
    intro vs hvs v hv
    cases hvs
    obtain rfl := List.mem_singleton.mp hv
    rintro items hitems
    cases hitems
    decide
  have hbefore : HasArrays before (flagArray []) (rowArray []) [] [] := ⟨rfl, rfl, rfl, rfl⟩
  have hholds : hub.Holds a .deviceSetup before := (station_holds a _ before).2
  have hused : UsesBuild hub a .null (.str "1.9.0") := station_usesBuild a (by decide) before
  have hgate : (supportsStructuredWrite (.str "1.9.0")).outcome = .ok true := rfl
  refine ⟨hgood, hcount, hshort, hbefore, hholds, hused, hgate, ?_⟩
  obtain ⟨v, w, flags, rows, decoded, after, hflags, hrows, harrays, hdecoded, hruns⟩ :=
    configured_read_back hgood hcount hshort hbefore
  obtain ⟨h', hrun, hafter⟩ := (hruns hub a .null (.str "1.9.0") false hholds hused).1 true hgate
  have hflagsAre : flags = [0, 255] := by
    cases hflags with
    | kept h => cases h
    | given h hn =>
      cases h
      exact (Except.ok.inj hn.toOctets).symm
  have hrowsAre : rows = [row] ∧ w = rowArray [row] := by
    cases hrows with
    | kept h => cases h
    | compiled _ hgiven => exact absurd rfl hgiven
    | given h _ hr =>
      cases h
      cases hr with
      | cons hfirst hrest =>
        cases hrest
        obtain ⟨items, hitems, hn⟩ := hfirst
        cases hitems
        have hsame := Except.ok.inj ((toOctets_ofOctets row).symm.trans hn.toOctets)
        subst hsame
        exact ⟨rfl, rfl⟩
  obtain ⟨rfl, rfl⟩ := hrowsAre
  subst hflagsAre
  refine ⟨decoded, after, h', hrun, ?_, hafter, harrays.getRows⟩
  have hlength := congrArg List.length hdecoded
  rw [List.length_map, List.length_map] at hlength
  exact hlength

/-! ### Rows that are too long for the wire -/

/-- The write of rows that are good but too long fails. -/
theorem fails_writePayload (hgood : payloads.Good model compiled)
    (hcount : payloads.Countable compiled) (hlong : ¬ payloads.Short) :
    Fails a .deviceSetup (writePayload level structured .actions payloads.actions) values values := by
  rcases hgood.actions with hnull | ⟨vs, hvs⟩
  · refine absurd (fun vs hvs => ?_) hlong
    cases hnull.symm.trans hvs
  · obtain ⟨rows, hoctets⟩ := exists_forall₂ fun v hv => exists_row (hgood.rows hvs v hv)
    have harray := buildArray_rows (hoctets.imp fun _ _ h => h.2)
    have hunserial : ¬ Serial .actions vs := by
      rw [← carried_actions hgood hcount] at hlong
      exact fun hserial => hlong (.inr ⟨vs, hvs, hserial⟩)
    rw [serial_iff harray] at hunserial
    obtain ⟨fault, hfault⟩ := exists_wireFault hunserial
    rw [hvs]
    let w : ArrayWrite := ⟨.actions, vs.map ArrayWrite.element, structured⟩
    have hbuild : ArrayWrite.build .actions (.list vs) structured = .ok w := rfl
    exact fails_bind (leads_ofMismatch hbuild) (fails_bind_left (fails_sendWrite harray hfault))

/-- Behind a wire, good payloads with rows that are too long for it end in a failure when the flags
have been written: these are as they are given, and the rows are as before. -/
theorem configure_fails_at_long_row (hgood : payloads.Good model compiled)
    (hcount : payloads.Countable compiled) (hlong : ¬ payloads.Short)
    {before : Entries} {v₀ w₀ : Value} {flags₀ : List UInt8} {rows₀ : List (List UInt8)}
    (hbefore : HasArrays before v₀ w₀ flags₀ rows₀) :
    ∃ v flags after, FinalFlags payloads.configurations v₀ flags₀ v flags ∧
      HasArrays after v w₀ flags rows₀ ∧
      ∀ (h : Hub) (a : Address) (build used : Value) (verbose structured : Bool),
        h.Holds a .deviceSetup before → h.Wired a .deviceSetup → UsesBuild h a build used →
        (supportsStructuredWrite used).outcome = .ok structured →
        ∃ e h', (configure model build payloads verbose).perform a h = (.error (.link e), h') ∧
          h'.Holds a .deviceSetup after := by
  obtain ⟨after, v, flags, hwritten, hflags, harrays⟩ := exists_flags hgood hcount hbefore
  refine ⟨v, flags, after, hflags, harrays, ?_⟩
  intro h a build used verbose structured hh hw hused hgate
  obtain ⟨start, h₁, hrun, hh₁, hw₁⟩ := exists_carryOut verbose hgood hh hused
  have hfails : Fails a .deviceSetup
      (carryOut model payloads compiled (Level.ofVerbose verbose) start used) before after := by
    refine fails_bind (hgate ▸ leads_ofLogged _) (fails_bind (leads_note _ _ _) ?_)
    refine fails_bind_left (fails_bind (leads_writePayload hwritten) ?_)
    exact fails_bind_left (fails_writePayload hgood hcount hlong)
  obtain ⟨e, h', hrun', hh'⟩ := hfails h₁ hh₁ (hw₁ hw)
  exact ⟨e, h', hrun.trans hrun', hh'⟩

/-- A row of one octet more than the wire counts: the flag is written, the row is not, and nothing is
reported. -/
theorem configure_row_unwritten :
    let a : Address := ⟨List.replicate Address.length '1'⟩
    let payloads := zeroRows (Zcl.rowLimit + 1)
    let before : Entries := [(ArrayAttribute.configurations.name, flagArray []),
      (ArrayAttribute.actions.name, rowArray [])]
    let hub := station a (.str "1.9.0") before
    payloads.Good .null .null ∧ payloads.Countable .null ∧
    HasArrays before (flagArray []) (rowArray []) [] [] ∧
    hub.Holds a .deviceSetup before ∧ UsesBuild hub a .null (.str "1.9.0") ∧
    (supportsStructuredWrite (.str "1.9.0")).outcome = .ok true ∧
    ∃ e after h', (configure .null .null payloads false).perform a hub = (.error (.link e), h') ∧
      h'.Holds a .deviceSetup after ∧
      after.get? ArrayAttribute.configurations.name = some (flagArray [.int 1]) ∧
      after.get? ArrayAttribute.actions.name = some (rowArray []) := by
  intro a payloads before hub
  have hgood : payloads.Good .null .null := good_zeroRows (by decide)
  have hcount : payloads.Countable .null := countable_zeroRows _
  have hlong : ¬ payloads.Short := by
    rw [short_zeroRows]
    exact Nat.not_succ_le_self _
  have hbefore : HasArrays before (flagArray []) (rowArray []) [] [] := ⟨rfl, rfl, rfl, rfl⟩
  have hholds : hub.Holds a .deviceSetup before := (station_holds a _ before).2
  have hused : UsesBuild hub a .null (.str "1.9.0") := station_usesBuild a (by decide) before
  have hgate : (supportsStructuredWrite (.str "1.9.0")).outcome = .ok true := rfl
  refine ⟨hgood, hcount, hbefore, hholds, hused, hgate, ?_⟩
  obtain ⟨v, flags, after, hflags, harrays, hruns⟩ :=
    configure_fails_at_long_row hgood hcount hlong hbefore
  obtain ⟨e, h', hrun, hafter⟩ := hruns hub a .null (.str "1.9.0") false true hholds
    (station_wired a _ before) hused hgate
  cases hflags with
  | kept h => cases h
  | given h hn =>
    cases h
    exact ⟨e, after, h', hrun, hafter, harrays.getFlags, harrays.getRows⟩

end Commissioning.DeviceSetup

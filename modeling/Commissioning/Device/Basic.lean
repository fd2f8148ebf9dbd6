import Commissioning.Device.Address
import Commissioning.Device.Reply
import Commissioning.Exchange.Recording
import Commissioning.InputAction.Model

/-!
Devices. A cluster holds named values, answers reads from them and stores what is written. A script
may make it answer late, fail, refuse, or give another answer: each call takes the next reaction.
Behind a wire a cluster gets only the calls that can be put there.
-/
namespace Commissioning

/-- How a cluster reacts to one call. -/
structure Reaction where
  /-- How long the call takes, in milliseconds. -/
  delay : Nat := 0
  /-- The call fails, with this text. -/
  failure : Option String := none
  /-- The answer to a read in place of the values. -/
  answer : Option Value := none
  /-- What comes back from a write. -/
  reply : Received := .nothing
  /-- Whether a write is stored. -/
  stores : Bool := true

namespace Reaction

/-- Whether a call is given up: it takes time, and at least all that is granted. -/
def isLate (r : Reaction) (limit : Nat) : Bool := 0 < r.delay && limit ≤ r.delay

/-- How long a call takes until it is answered or given up. -/
def duration (r : Reaction) (limit : Nat) : Nat := if r.isLate limit then limit else r.delay

end Reaction

/-- A cluster of a device. -/
structure ClusterState where
  values : Entries := []
  sequences : Sequences := []
  script : List Reaction := []
  /-- Whether calls go out on a wire, as they do to a device. A stand-in takes them as they are. -/
  wired : Bool := false

namespace ClusterState

/-- The status of an attribute that a cluster does not have. -/
def unsupported : Value := .status 0x86

/-- The next answer for a name, from its sequence or from the values. -/
def next? (s : ClusterState) (name : String) : Option Value × ClusterState :=
  match s.sequences.next? name with
  | some (v, sequences) => (some v, { s with sequences })
  | none => (s.values.get? name, s)

/-- Reads names one after the other: what is found, and a status for what is not. -/
def readAll (s : ClusterState) : List String → Entries → Entries →
    Value × ClusterState
  | [], found, failed => (.tuple [.dict found, .dict failed], s)
  | name :: names, found, failed =>
    match s.next? name with
    | (some v, s) => readAll s names (found.put name v) failed
    | (none, s) => readAll s names found (failed.put name unsupported)

/-- The name under which a structured write is stored. -/
def recordName (attrId : Int) : String :=
  if attrId = 0 then Attribute.inputConfigurations
  else if attrId = 1 then Attribute.inputActions
  else toString attrId

/-- Stores what a call writes. -/
def store (s : ClusterState) : ClusterCall → ClusterState
  | .write values _ => { s with values := s.values.merge values }
  | .writeStructured records _ =>
    { s with values := s.values.merge (records.map fun r => (recordName r.attrId, r.array)) }
  | _ => s

/-- Puts more values over those that are there, and more answers and reactions behind them. -/
def extend (s more : ClusterState) : ClusterState where
  wired := s.wired
  values := s.values.merge more.values
  sequences := more.sequences.foldl Sequences.extend s.sequences
  script := s.script ++ more.script

/-- The reaction to the next call. -/
def react (s : ClusterState) : Reaction × ClusterState :=
  match s.script with
  | [] => ({}, s)
  | r :: script => (r, { s with script })

/-- Why a call fails: it cannot be put on the wire, or its reaction tells so. -/
def failure? (s : ClusterState) (call : ClusterCall) (r : Reaction) : Option String :=
  let unwired := if s.wired then call.unwired?.map Mismatch.message else none
  unwired.or r.failure

/-- The reply to a call, once its time has passed. -/
def reply (s : ClusterState) (call : ClusterCall) (r : Reaction) : Reply × ClusterState :=
  match s.failure? call r with
  | some cause => (.failed cause, s)
  | none => match call with
    | .read names _ => match r.answer with
      | some v => (.read v, s)
      | none =>
        let (v, s) := s.readAll names [] []
        (.read v, s)
    | .command _ => (.done, s)
    | call => (.written r.reply, if r.stores then s.store call else s)

end ClusterState

/-- A device. -/
structure Device where
  address : Address
  /-- The address as the device is registered, which messages show. -/
  label : String
  /-- The model as the device tells it; nothing if it tells none. -/
  model : Value
  /-- The clusters, by endpoint and number. -/
  clusters : List ((Nat × Nat) × ClusterState)
  /-- The endpoints, also those without clusters. -/
  endpoints : List Nat

namespace Device

/-- Where a cluster is found. -/
def place (c : Cluster) : Nat × Nat := (c.endpoint, c.id)

/-- The state of a cluster. -/
def cluster (d : Device) (c : Cluster) : Except LinkError ClusterState :=
  if !d.endpoints.contains c.endpoint then .error (.noEndpoint c.endpoint d.label)
  else match d.clusters.lookup (place c) with
    | some s => .ok s
    | none => .error (.noCluster c.id c.endpoint d.label)

/-- Changes the cluster at a place. -/
def update (d : Device) (there : Nat × Nat) (f : ClusterState → ClusterState) : Device :=
  { d with clusters := d.clusters.map fun (p, s) => (p, if p = there then f s else s) }

/-- The short name of the model. -/
def shortModel (d : Device) : Except Mismatch (Option String) := Model.shortNameOf d.model

end Device

end Commissioning

import Commissioning.Device.Basic

/-!
The hub: the devices that procedures talk to, one clock, and what has been seen on the way. A
request becomes a call that is open for a while; it closes with the reply, or without one when its
time is up.

    request ──begin──▶ call under way ──── its time ────▶ finish ──▶ outcome
               └─────▶ no call at all ──▶ outcome
-/
namespace Commissioning

/-- A call that has been made, and when. -/
structure CallRecord where
  time : Nat
  endpoint : Nat
  cluster : Nat
  call : ClusterCall

/-- The devices, the clock and the records. -/
structure Hub where
  now : Nat
  /-- How long a call may take, in milliseconds. -/
  limit : Nat
  devices : List Device
  calls : List CallRecord
  log : Log

/-- A request whose call is open. -/
structure OpenCall where
  request : Request
  call : ClusterCall
  reaction : Reaction

/-- How a request starts: without any call, or with an open one. -/
inductive Opening where
  | closed (outcome : Outcome Entries)
  | opened (x : OpenCall)

namespace Hub

/-- How long a call may take by default. -/
def defaultLimit : Nat := 10000

/-- The device of an address. -/
def device? (h : Hub) (a : Address) : Option Device := h.devices.find? fun d => d.address = a

/-- Changes the device of an address. -/
def update (h : Hub) (a : Address) (f : Device → Device) : Hub :=
  { h with devices := h.devices.map fun d => if d.address = a then f d else d }

/-- Lets time pass. -/
def wait (h : Hub) (ms : Nat) : Hub := { h with now := h.now + ms }

/-- Writes lines to the log. -/
def write (h : Hub) (lines : Log) : Hub := { h with log := h.log ++ lines }

/-- The cluster that a request is for. -/
def cluster (h : Hub) (a : Address) (c : Cluster) : Except LinkError ClusterState :=
  match h.device? a with
  | some d => d.cluster c
  | none => .error (.noEndpoint c.endpoint a.text)

/-- Whether a call can be made at all: a cluster has few commands. -/
def refusal? : Request → Option LinkError
  | .command c name =>
    if Command.all.contains name then none else some (.command c name s!"unknown command {name}")
  | _ => none

/-- Makes a call: it is recorded, and the cluster takes its next reaction. -/
def call (h : Hub) (a : Address) (c : Cluster) (s : ClusterState) (r : Request)
    (call : ClusterCall) : OpenCall × Hub :=
  let (reaction, s) := s.react
  let made : CallRecord := ⟨h.now, c.endpoint, c.id, call⟩
  let h := h.update a fun d => d.update (Device.place c) fun _ => s
  (⟨r, call, reaction⟩, { h with calls := h.calls ++ [made] })

/-- Starts a request. -/
def begin (h : Hub) (a : Address) (r : Request) : Opening × Hub :=
  match h.cluster a r.cluster with
  | .error e => (.closed (.error (.link e)), h)
  | .ok s => match ClusterCall.ofRequest r with
    | .error e => (.closed (.error (.mismatch e)), h)
    | .ok call =>
      let h := h.write [r.line]
      match refusal? r with
      | some e => (.closed (.error (.link e)), h)
      | none =>
        let (x, h) := h.call a r.cluster s r call
        (.opened x, h)

/-- How long an open call stays open. -/
def duration (h : Hub) (x : OpenCall) : Nat := x.reaction.duration h.limit

/-- Takes the reply to a call; a late one is given up, and the cluster never sees it. -/
def reply (h : Hub) (a : Address) (x : OpenCall) : Reply × Hub :=
  if x.reaction.isLate h.limit then (.failed "", h)
  else match h.cluster a x.request.cluster with
    | .error _ => (.failed "", h)
    | .ok s =>
      let (reply, s) := s.reply x.call x.reaction
      (reply, h.update a fun d => d.update (Device.place x.request.cluster) fun _ => s)

/-- Closes a call. -/
def finish (h : Hub) (a : Address) (x : OpenCall) : Outcome Entries × Hub :=
  let (reply, h) := h.reply a x
  let outcome := reply.outcome x.request
  (outcome, h.write (Reply.line? x.request outcome))

/-- A request from its start to its end, while nothing else happens. -/
def exchange (h : Hub) (a : Address) (r : Request) : Outcome Entries × Hub :=
  match h.begin a r with
  | (.closed outcome, h) => (outcome, h)
  | (.opened x, h) => (h.wait (h.duration x)).finish a x

/-- Refuses a write whose values have no names. The cluster has to be there all the same. -/
def refuseUnnamed (h : Hub) (a : Address) (c : Cluster) (values : Value) : Fault :=
  match h.cluster a c with
  | .error e => .link e
  | .ok _ => .mismatch (.missingPart values.typeName "items")

end Hub

/-- Runs a procedure on a device while nothing else happens. -/
def Procedure.perform (a : Address) (h : Hub) : Procedure α → Outcome α × Hub
  | .done x => (.ok x, h)
  | .fail e => (.error e, h)
  | .ask (.exchange r) next =>
    let (outcome, h) := h.exchange a r
    perform a h (next outcome)
  | .ask (.pause ms) next => perform a (h.wait ms) (next ())
  | .ask .clock next => perform a h (next h.now)
  | .ask (.log lines) next => perform a (h.write lines) (next ())

/-- A procedure on the cluster that a value names. What cannot be a name at all is a mismatch. -/
def Procedure.onCluster (name : Value) (f : Cluster → Procedure α) : Procedure α :=
  match name with
  | .str s => match Cluster.ofName? s with
    | some c => f c
    | none => .fail (.link (.unknownCluster (.str s)))
  | v => .fail (if v.isKey then (Fault.link (.unknownCluster v)).raised else .mismatch (.noKey v))

end Commissioning

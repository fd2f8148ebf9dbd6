import Commissioning.Device.Call

/-!
Replies of a cluster. A read counts only if all that was asked for is there and nothing failed, a
write only if no status in its reply differs from success:

    reply to a read       (found, failed)   found alone   ()
    reply to a write      nothing   [r, …]   [[r, …]]   one status for all

Neither reply says which of its forms it has; that is found out by looking at it.
-/
namespace Commissioning

/-- What comes back from a write: nothing, a number, a list, or a record, whose status and attribute
may be missing and whose fields are told one after the other. -/
inductive Received where
  | nothing
  | number (n : Int)
  | list (items : List Received)
  | record (status attrId : Option Int) (fields : List Received)
  deriving Repr

namespace Received

/-- Whether something has come back at all. -/
def isTruthy : Received → Bool
  | nothing => false
  | number n => n != 0
  | list items => !items.isEmpty
  | record .. => true

/-- The status of a record. -/
def status? : Received → Option Int
  | record status _ _ => status
  | _ => none

/-- The attribute of a record. -/
def attrId? : Received → Option Int
  | record _ attrId _ => attrId
  | _ => none

def isList : Received → Bool
  | list _ => true
  | _ => false

/-- The items of a list, or the fields of a record. -/
def items : Received → Except Mismatch (List Received)
  | list items | record _ _ items => .ok items
  | number n => .error (.noItems (.int n))
  | nothing => .error (.noItems .null)

/-- The first item of a list, or the first field of a record. -/
def first : Received → Except Mismatch Received
  | list (item :: _) | record _ _ (item :: _) => .ok item
  | list [] | record _ _ [] => .error (.pastEnd (.list []))
  | number n => .error (.noPositions (.int n))
  | nothing => .error (.noPositions .null)

end Received

/-- The reply to a call. -/
inductive Reply where
  /-- The call failed, or was given up; then there is no cause. -/
  | failed (cause : String)
  | read (answer : Value)
  | written (result : Received)
  | done

namespace Reply

/-- The status of success. -/
def success : Int := 0

/-- Whether a text stands in another one. -/
def occursIn (part : List Char) : List Char → Bool
  | [] => part.isEmpty
  | c :: rest => part.isPrefixOf (c :: rest) || occursIn part rest

/-- Whether a value has a name: among its keys, among its items, or as a part of a text. -/
def hasName (v : Value) (name : String) : Except Mismatch Bool :=
  match v with
  | .dict entries => .ok (entries.any fun (key, _) => key == name)
  | .list items | .tuple items => .ok (items.any fun item => match item with
    | .str s => s == name
    | _ => false)
  | .str s => .ok (occursIn name.toList s.toList)
  | .bytes _ => .error .textAmongOctets
  | v => .error (.noContainer v)

/-- The names that a value does not have. -/
def missingNames (v : Value) : List String → Except Mismatch (List String)
  | [] => .ok []
  | name :: names => do
    let found ← hasName v name
    let rest ← missingNames v names
    return if found then rest else name :: rest

/-- What a reply has found, and what it tells about failures. -/
def parts (answer : Value) : Value × Value :=
  match answer with
  | .list items | .tuple items => (items.getD 0 (.dict []), items.getD 1 (.dict []))
  | v => (v, .dict [])

/-- The value under a name that is there, made plain. Only named values can be asked by name. -/
def plainOf (v : Value) (name : String) : Except Mismatch Value :=
  match v with
  | .dict entries => do Zcl.plain (← ClusterCall.required entries name)
  | .str _ | .list _ | .tuple _ => .error (.namedPosition v)
  | v => .error (.noPositions v)

/-- The plain values under names, each name once. -/
def plainValues (v : Value) : List String → Entries → Except Mismatch Entries
  | [], values => .ok values
  | name :: names, values => do plainValues v names (values.put name (← plainOf v name))

/-- The attributes that the answer to a read gives. -/
def attributes (c : Cluster) (names : List String) (answer : Value) : Outcome Entries := do
  let (found, failures) := parts answer
  let missing ← ofMismatch (missingNames found names)
  if failures.isTruthy || !missing.isEmpty then
    .error (Fault.link (.incomplete c missing (← ofMismatch failures.pairs))).raised
  ofMismatch (plainValues found names [])

/-- A status that is no success. -/
def isRefusal : Option Int → Bool
  | some status => status != success
  | none => false

/-- What records refuse: the first refusal counts, and what has no status is passed over. -/
def checkRecords (form : WriteForm) (c : Cluster) : List Received → Except LinkError Unit
  | [] => .ok ()
  | r :: rs => match r.status? with
    | some status =>
      if status = success then checkRecords form c rs
      else .error (.refusedAttribute form c r.attrId? status)
    | none => checkRecords form c rs

/-- Whether a write has been accepted. A reply that has a status of its own is told by that first;
its records are those of its first item, if that is a list. -/
def checkWrite (form : WriteForm) (c : Cluster) (result : Received) : Outcome Unit := do
  if result.isTruthy then
    if let some status := result.status? then
      if status ≠ success then .error (.link (.refused form c status))
    let head ← ofMismatch result.first
    let records ← ofMismatch (if head.isList then head.items else result.items)
    (checkRecords form c records).mapError .link

/-- The failure of a request whose call failed. -/
def linkError (r : Request) (cause : String) : LinkError :=
  match r with
  | .read c names _ => .read c names cause
  | .write c values _ => .write c (values.map Prod.fst) cause
  | .command c name => .command c name cause
  | .writeStructured c .. => .structured c cause

/-- The outcome of a request, from the reply to its call. -/
def outcome (reply : Reply) (r : Request) : Outcome Entries :=
  match r, reply with
  | r, .failed cause => .error (.link (linkError r cause))
  | .read c names _, .read answer => attributes c names answer
  | .write c .., .written result => (checkWrite .plain c result).map fun _ => []
  | .writeStructured c .., .written result => (checkWrite .structured c result).map fun _ => []
  | _, _ => .ok []

/-- The log line about the attributes that a read gave. -/
def line? (r : Request) (outcome : Outcome Entries) : Log :=
  match r, outcome with
  | .read c .., .ok values => [⟨.debug, s!"Read {c.name} result: " ++ (Value.dict values).literal⟩]
  | _, _ => []

end Reply

end Commissioning

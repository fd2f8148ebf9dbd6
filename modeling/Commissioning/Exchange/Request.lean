import Commissioning.Exchange.Plan
import Commissioning.Logged
import Commissioning.Zcl.Cluster

/-!
Requests to a device by the names of its attributes, and procedures that are made of them. Between
requests a procedure may wait, read the clock and write to the log. A request that fails ends the
procedure; none is sent again.
-/
namespace Commissioning

/-- An array attribute of a structured write. -/
structure ArrayRecord where
  attrId : Int
  dataType : Int
  elementType : Int
  elements : List Value

/-- A request to a device. Attributes of the manufacturer's own are marked by its code. -/
inductive Request where
  | read (cluster : Cluster) (attributes : List String) (manufacturer : Option Int)
  | write (cluster : Cluster) (values : Entries) (manufacturer : Option Int)
  | command (cluster : Cluster) (name : String)
  | writeStructured (cluster : Cluster) (records : List ArrayRecord) (manufacturer : Option Int)

/-- The cluster that a request is for. -/
def Request.cluster : Request → Cluster
  | read c .. | write c .. | command c _ | writeStructured c .. => c

/-- What a procedure asks for. -/
inductive Step where
  | exchange (r : Request)
  | pause (ms : Nat)
  | clock
  | log (lines : Log)

/-- The answer to a step: attributes read (none for other requests), or the time. -/
abbrev Step.Answer : Step → Type
  | exchange _ => Outcome Entries
  | pause _ => Unit
  | clock => Nat
  | log _ => Unit

/-- A procedure on one device. -/
abbrev Procedure (α : Type) := Plan Step.Answer α

namespace Procedure

/-- Sends a request. -/
def send (r : Request) : Procedure Entries := .ask (.exchange r) .ofOutcome

/-- Reads attributes. -/
def read (c : Cluster) (attributes : List String) (manufacturer : Option Int) :
    Procedure Entries :=
  send (.read c attributes manufacturer)

/-- Writes attributes. -/
def write (c : Cluster) (values : Entries) (manufacturer : Option Int) : Procedure Unit := do
  let _ ← send (.write c values manufacturer)

/-- Sends a command. -/
def command (c : Cluster) (name : String) : Procedure Unit := do
  let _ ← send (.command c name)

/-- Writes array attributes. -/
def writeStructured (c : Cluster) (records : List ArrayRecord) : Procedure Unit := do
  let _ ← send (.writeStructured c records none)

/-- Waits. -/
def pause (ms : Nat) : Procedure Unit := .ask (.pause ms) .done

/-- The time in milliseconds. -/
def clock : Procedure Nat := .ask .clock .done

/-- Writes lines to the log. -/
def log (lines : Log) : Procedure Unit := .ask (.log lines) .done

/-- Writes a message with named values to the log. -/
def note (level : Level) (message : String) (entries : Entries) : Procedure Unit :=
  log [Log.note level message entries]

/-- Frames named values that a caller has given in the log. Unlike a message, a banner is worded
whoever reads it, so they have to be values that can be shown. -/
def banner (title : String) (entries : Entries) : Procedure Unit :=
  if (Value.dict entries).isShowable then log (Log.banner title entries)
  else .fail (.mismatch .unwritable)

/-- Does what needs no device. -/
def ofLogged (l : Logged α) : Procedure α := do
  if !l.log.isEmpty then log l.log
  .ofOutcome l.outcome

/-- Does what needs neither a device nor the log. -/
def ofMismatch (r : Except Mismatch α) : Procedure α := .ofOutcome (Commissioning.ofMismatch r)

end Procedure

end Commissioning

import Commissioning.Exchange.Request

/-!
A scripted device that keeps what it is asked. It answers reads from a list of values, which writes
do not change, and fails where it is told to; the run of a procedure on it is the list of requests
with their times.
-/
namespace Commissioning

/-- The kinds of requests. -/
inductive RequestKind where
  | read
  | write
  | command
  | writeStructured
  deriving DecidableEq, Repr

def RequestKind.name : RequestKind → String
  | read => "read"
  | write => "write"
  | command => "command"
  | writeStructured => "write_structured"

def Request.kind : Request → RequestKind
  | read .. => .read
  | write .. => .write
  | command .. => .command
  | writeStructured .. => .writeStructured

/-- The names that a request touches. -/
def Request.names : Request → List String
  | read _ attributes _ => attributes
  | write _ values _ => values.map Prod.fst
  | command _ name => [name]
  | writeStructured _ records _ => records.map fun r => toString r.attrId

/-- Answers that are handed out one after the other, by attribute. -/
abbrev Sequences := List (String × List Value)

namespace Sequences

/-- The next answer for a name, and what is left. -/
def next? : Sequences → String → Option (Value × Sequences)
  | [], _ => none
  | (key, answers) :: more, name =>
    if key = name then
      match answers with
      | [] => none
      | v :: rest => some (v, (key, rest) :: more)
    else (next? more name).map fun (v, rest) => (v, (key, answers) :: rest)

/-- Puts answers for a name behind those that are there. -/
def extend (s : Sequences) (more : String × List Value) : Sequences :=
  match s with
  | [] => [more]
  | (key, answers) :: rest =>
    if key = more.1 then (key, answers ++ more.2) :: rest else (key, answers) :: extend rest more

end Sequences

/-- How the scripted device answers. -/
structure Script where
  values : Entries
  sequences : Sequences
  /-- Attributes that reads leave out. -/
  absent : List String
  /-- The kinds and names that fail. -/
  failing : List (String × String)
  /-- How long each kind of request takes. -/
  latency : List (String × Nat)

namespace Script

/-- The name because of which a request fails. -/
def failure? (s : Script) (r : Request) : Option String :=
  r.names.find? fun name => s.failing.contains (r.kind.name, name)

/-- Reads attributes one after the other; one that is not listed reads as zero. -/
def readAll (s : Script) : List String → Entries × Script
  | [] => ([], s)
  | name :: names =>
    if s.absent.contains name then s.readAll names
    else
      let (v, sequences) := match s.sequences.next? name with
        | some (v, rest) => (v, rest)
        | none => ((s.values.get? name).getD (.int 0), s.sequences)
      let (entries, after) := { s with sequences }.readAll names
      ((name, v) :: entries, after)

/-- The answer to a request. -/
def answer (s : Script) (r : Request) : Outcome Entries × Script :=
  match s.failure? r with
  | some name => (.error (.link (.arranged r.kind.name name)), s)
  | none => match r with
    | .read _ attributes _ =>
      let (entries, after) := s.readAll attributes
      (.ok entries, after)
    | _ => (.ok [], s)

end Script

/-- A run of a procedure: its requests with the times at which they started, its log, its outcome
and the time at which it ended. -/
structure Recording (α : Type) where
  calls : List (Nat × Request)
  log : Log
  outcome : Outcome α
  finish : Nat

/-- Runs a procedure on a scripted device. -/
def Procedure.record (s : Script) (now : Nat) : Procedure α → Recording α
  | .done a => ⟨[], [], .ok a, now⟩
  | .fail fault => ⟨[], [], .error fault, now⟩
  | .ask (.exchange r) next =>
    let (answer, after) := s.answer r
    let rest := record after (now + (s.latency.lookup r.kind.name).getD 0) (next answer)
    { rest with calls := (now, r) :: rest.calls }
  | .ask (.pause ms) next => record s (now + ms) (next ())
  | .ask .clock next => record s now (next now)
  | .ask (.log lines) next =>
    let rest := record s now (next ())
    { rest with log := lines ++ rest.log }

end Commissioning

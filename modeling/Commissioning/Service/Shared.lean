import Commissioning.Fault.Basic
import Commissioning.Text.Blank
import Commissioning.Text.LowerCase

/-!
What all services share: the flag that promotes messages about phases, the tables of locks, and the
one way of writing an address that locks go by.
-/
namespace Commissioning

/-- The name of this program among the programs of the host. -/
def domain : String := "ubisys_setup"

/-- The key of the flag that promotes messages about phases. -/
def verboseKey : String := "verbose_info_logging"

/-- What the host keeps for this program, among all that it keeps. A host that keeps nothing keeps
nothing for this program. -/
def domainData (data : Value) : Except Mismatch Entries :=
  match data with
  | .null => .ok []
  | .dict entries => match Entries.get? entries domain with
    | none => .ok []
    | some (.dict own) => .ok own
    | some v => .error (.missingPart v.typeName "get")
  | v => .error (.missingPart v.typeName "get")

/-- Whether messages about phases are promoted. -/
def isVerbose (data : Value) : Except Mismatch Bool := do
  return ((← domainData data).get verboseKey).isTruthy

/-- An address as locks and messages have it: no blanks around it, in small letters. -/
def normalizedAddress (v : Value) : Outcome String :=
  if !v.isShowable then .error (.mismatch .unwritable)
  else match Text.lower (String.ofList (Text.trim v.toText.toList)) with
  | "" => .error (.access .missingAddress)
  | s => .ok s

/-- What a lock is for: a kind of operation on one address. -/
structure LockKey where
  kind : String
  address : String
  deriving DecidableEq, Repr

/-- A lock as the host keeps it. Where something else is kept in its place, it is no lock. -/
inductive Lock where
  | free
  | held
  | foreign (v : Value)

/-- Tables of locks by name, each with its locks by address. Where the host keeps something else
under a name, there is no table. -/
abbrev LockTables := List (String × Option (List (String × Lock)))

namespace LockTables

/-- What the names of tables end in. -/
def nameEnd : String := "_locks"

/-- The name of the table of a kind. -/
def name (kind : String) : String := kind ++ nameEnd

/-- The tables with a lock for a key, which is free; one that is there already stays as it is. -/
def request (tables : LockTables) (k : LockKey) : Except Mismatch LockTables :=
  match tables with
  | [] => .ok [(name k.kind, some [(k.address, .free)])]
  | (n, table) :: rest =>
    if n = name k.kind then
      match table with
      | some locks =>
        let locks := if (locks.lookup k.address).isSome then locks
          else locks ++ [(k.address, .free)]
        .ok ((n, some locks) :: rest)
      | none => .error (.missingPart n "setdefault")
    else do return (n, table) :: (← request rest k)

/-- The lock of a key, if it has been made. -/
def lock? (tables : LockTables) (k : LockKey) : Option Lock :=
  (tables.lookup (name k.kind)).join.bind fun locks => locks.lookup k.address

/-- The tables with the lock of a key in another state. -/
def put (tables : LockTables) (k : LockKey) (l : Lock) : LockTables :=
  tables.map fun (n, table) =>
    (n, if n = name k.kind then table.map fun locks =>
        locks.map fun (address, old) => (address, if address = k.address then l else old)
      else table)

/-- The tables that the host keeps already. What it keeps there are no locks. -/
def ofData (own : Entries) : LockTables :=
  (own.filter fun (key, _) => key.endsWith nameEnd).map fun (key, v) => match v with
    | .dict locks => (key, some (locks.map fun (address, v) => (address, .foreign v)))
    | _ => (key, none)

/-- The addresses of each table in order. -/
def sorted (tables : LockTables) : List (String × List String) :=
  tables.filterMap fun (n, table) =>
    table.map fun locks => (n, (locks.map Prod.fst).mergeSort fun a b => a ≤ b)

end LockTables

end Commissioning

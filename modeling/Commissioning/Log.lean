import Commissioning.Value.Mismatch

/-!
Log lines. Named values follow a message as `key=value` pairs in the order of their keys, and a
session is framed by banners:

    ╔══════════╗
    ║  title  key=value
    ╚══════════╝
-/
namespace Commissioning

/-- The weight of a log line. Some weights have names. -/
structure Level where
  rank : Int
  deriving DecidableEq, Repr

namespace Level

def debug : Level := ⟨10⟩
def info : Level := ⟨20⟩
def warning : Level := ⟨30⟩
def error : Level := ⟨40⟩
def critical : Level := ⟨50⟩

/-- The weights that have names. -/
def names : List (Int × String) :=
  [(0, "NOTSET"), (10, "DEBUG"), (20, "INFO"), (30, "WARNING"), (40, "ERROR"), (50, "CRITICAL")]

def name (l : Level) : String := (names.lookup l.rank).getD s!"Level {l.rank}"

/-- The level of messages about the phases of an operation. -/
def ofVerbose (verbose : Bool) : Level := if verbose then info else debug

end Level

/-- One line of the log. -/
structure Line where
  level : Level
  text : String
  deriving DecidableEq, Repr

/-- Log lines in the order in which they are written. -/
abbrev Log := List Line

namespace Log

/-- The lines that a reader who asks for `level` sees. A line without weight is seen by nobody. -/
def atLeast (level : Level) (log : Log) : Log :=
  log.filter fun line => decide (0 < line.level.rank ∧ level.rank ≤ line.level.rank)

/-- The named values of a message. Names that a message needs for itself are taken. -/
def namesBeside (taken : List String) (v : Value) : Except Mismatch Entries :=
  match v with
  | .dict entries => match entries.find? fun (key, _) => taken.contains key with
    | some (key, _) => .error (.takenName key)
    | none => .ok entries
  | v => .error (.noNames v)

/-- The names that a banner and a plain message need for themselves. -/
def bannerNames : List String := ["logger", "title"]
def noteNames : List String := ["logger", "level", "msg"]

/-- Named values as `key=value` pairs, sorted by key. -/
def pairs (entries : Entries) : String :=
  ", ".intercalate <|
    (entries.mergeSort fun a b => a.1 ≤ b.1).map fun (key, v) => key ++ "=" ++ v.text

/-- A message with named values behind it. -/
def note (level : Level) (message : String) (entries : Entries) : Line :=
  ⟨level, if entries.isEmpty then message else message ++ " | " ++ pairs entries⟩

/-- A banner of three lines, as wide as what it frames. -/
def banner (title : String) (entries : Entries) : Log :=
  let details := pairs entries
  let width := max 1 (title.length + if details.isEmpty then 0 else details.length + 2)
  let edge := String.ofList (List.replicate width '═')
  [⟨.info, "╔" ++ edge ++ "╗"⟩,
    ⟨.info, "║  " ++ title ++ if details.isEmpty then "" else "  " ++ details⟩,
    ⟨.info, "╚" ++ edge ++ "╝"⟩]

end Log

/-- The value of a span of time in seconds with one decimal place. -/
def elapsedValue (ms : Nat) : Value := .float (Binary64.ofTenths (tenthsOf ms))

end Commissioning

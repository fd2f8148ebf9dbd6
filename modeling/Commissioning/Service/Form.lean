import Commissioning.Fault.Basic
import Commissioning.Text.Blank
import Commissioning.Text.LowerCase
import Commissioning.Value.Reading

/-!
Forms: what the data of a service has to look like. Each key has a check, which may replace the
value by what it stands for. The first problem in the order of the keys is the one that is told;
missing keys come last, and what a form asks of its keys together comes after all that.

A number may be too large to be read at all. That is no problem of the form: it ends the check.
-/
namespace Commissioning

/-- A check of one value. -/
inductive Check where
  | text
  | flag
  /-- An integer from 0 to a maximum. -/
  | integer (maximum : Nat)
  /-- A number from 0 upwards, or above 0. -/
  | real (positive : Bool)
  /-- One of some names in small letters. -/
  | choice (names : List String)
  /-- A list, or one item in place of it. -/
  | listOf (item : Check)
  /-- Named values, or a list of them. -/
  | mappings

/-- What a check finds: a value or a problem, unless it ends early. -/
abbrev Verdict (α : Type) := Except Mismatch (Except FormError α)

namespace Check

/-- A problem with the value itself. -/
def problem (p : FormProblem) : Verdict α := .ok (.error ⟨p, []⟩)

/-- A value that passes. -/
def pass (a : α) : Verdict α := .ok (.ok a)

/-- A problem seen from further out. -/
def inside (step : PathStep) (r : Except FormError α) : Except FormError α :=
  r.mapError fun e => { e with path := step :: e.path }

/-- A value that is read: what cannot be read is a problem, what is too large ends the check. -/
def coerce (r : Except Mismatch α) (p : FormProblem) (next : α → Verdict β) : Verdict β :=
  match r with
  | .ok a => next a
  | .error e => match Fault.mismatchCategory e with
    | .value | .type => problem p
    | _ => .error e

/-- The text of a value; nothing and collections have none, nor does what cannot
be shown. -/
def textOf (v : Value) : Except FormProblem String :=
  match v with
  | .null => .error .nullText
  | .list _ | .dict _ => .error .noText
  | v => if v.isShowable then .ok v.toText else .error .notValid

/-- The words for a flag. -/
def words (b : Bool) : List String :=
  if b then ["1", "true", "yes", "on", "enable"] else ["0", "false", "no", "off", "disable"]

/-- The flag of a value: a truth value, a word for it, or a number. -/
def flagOf (v : Value) : Except FormProblem Bool :=
  match v with
  | .bool b => .ok b
  | .str s =>
    let word := String.ofList (Text.trim (Text.lower s).toList)
    if (words true).contains word then .ok true
    else if (words false).contains word then .ok false
    else .error (.noTruthValue word)
  | .int _ | .status _ | .float _ => .ok v.isTruthy
  | v => .error (if v.isShowable then .noTruthValue v.text else .notValid)

/-- A check that looks at one value and cannot end early. -/
def simple (f : α → Value) : Except FormProblem α → Verdict Value
  | .ok a => pass (f a)
  | .error p => problem p

/-- A number within its bounds. -/
def bounded (positive : Bool) (x : Binary64) : Except FormProblem Binary64 :=
  if positive then if (Binary64.ofNat 0).lt x then .ok x else .error (.notAbove 0)
  else if (Binary64.ofNat 0).le x then .ok x else .error (.below 0)

/-- An integer within its bounds. -/
def within (maximum : Nat) (n : Int) : Except FormProblem Int :=
  if n < 0 then .error (.below 0) else if maximum < n then .error (.above maximum) else .ok n

/-- The items of a list; nothing is an empty list, and anything else is its one item. -/
def listed (v : Value) : List Value :=
  match v with
  | .null => []
  | .list items => items
  | v => [v]

/-- Checks items, the first one at `position`. A problem inside an item is told at once; for one
with an item itself the items behind it are looked at, too. -/
def items (f : Value → Verdict Value) (position : Nat) :
    List Value → Except Mismatch (Except FormError (List Value))
  | [] => pass []
  | v :: vs => do
    match ← f v with
    | .error e =>
      if e.path.isEmpty then let _ ← items f (position + 1) vs
      return inside (.item position) (.error e)
    | .ok w => return (← items f (position + 1) vs).map (w :: ·)

/-- Named values. -/
def mapping (v : Value) : Verdict Value :=
  match v with
  | .dict _ => pass v
  | _ => problem .noMapping

/-- Checks a value. -/
def apply : Check → Value → Except Mismatch (Except FormError Value)
  | .text, v => simple .str (textOf v)
  | .flag, v => simple .bool (flagOf v)
  | .integer maximum, v =>
    coerce v.toInteger .noInteger fun n => simple .int (within maximum n)
  | .real positive, v =>
    coerce v.toReal .noReal fun x => simple .float (bounded positive x)
  | .choice names, v => simple .str do
    let s := Text.lower (← textOf v)
    if names.contains s then .ok s else .error (.noChoice names)
  | .listOf item, v => do return (← items item.apply 0 (listed v)).map .list
  | .mappings, v => match v with
    | .list vs => do return (← items mapping 0 vs).map .list
    | v => mapping v

end Check

/-- A key of a form. -/
structure Field where
  key : String
  check : Check
  required : Bool := false
  /-- What is put in if the key is missing. -/
  default : Option Value := none

/-- What the data of a service has to look like. -/
structure Form where
  fields : List Field
  /-- Keys of which at least one has to be there; no keys ask for nothing. -/
  oneOf : List String := []

namespace Form

/-- The field of a key. -/
def field? (f : Form) (key : String) : Option Field := f.fields.find? fun x => x.key == key

/-- Checks the value of one key. -/
def checkEntry (f : Form) (key : String) (v : Value) :
    Except Mismatch (Except FormError Value) :=
  match f.field? key with
  | none => .ok (Check.inside (.key key) (.error ⟨.extraKey, []⟩))
  | some x => do return Check.inside (.key key) (← x.check.apply v)

/-- Checks all keys; the first problem is the one that counts. -/
def checkEntries (f : Form) : Entries → Except Mismatch (Except FormError Entries)
  | [] => Check.pass []
  | (key, v) :: rest => do
    let first ← f.checkEntry key v
    let others ← f.checkEntries rest
    return match first with
      | .error e => .error e
      | .ok w => others.map ((key, w) :: ·)

/-- The entries for keys that are missing. -/
def defaults (f : Form) (given : Entries) : Entries :=
  f.fields.filterMap fun x =>
    if (given.get? x.key).isSome then none else x.default.map fun v => (x.key, v)

/-- The first key that has to be there and is not. -/
def missing? (f : Form) (given : Entries) : Option String :=
  (f.fields.find? fun x => x.required && (given.get? x.key).isNone).map Field.key

/-- What a form asks of its keys together. -/
def checkTogether (f : Form) (given : Entries) : Except FormError Unit :=
  if f.oneOf.isEmpty || f.oneOf.any fun key => (given.get? key).isSome then .ok ()
  else .error ⟨.noneOf f.oneOf, []⟩

/-- Checks data. -/
def verdict (f : Form) (data : Value) : Except Mismatch (Except FormError Entries) :=
  match data with
  | .dict given => do
    let checked ← f.checkEntries (given ++ f.defaults given)
    return do
      let entries ← checked
      match f.missing? given with
      | some key => .error ⟨.missingKey, [.key key]⟩
      | none =>
        f.checkTogether entries
        return entries
  | _ => Check.problem .noDictionary

/-- Checks data; gives them with defaults put in and values read. -/
def check (f : Form) (data : Value) : Outcome Entries := do
  (← ofMismatch (f.verdict data)).mapError .form

end Form

end Commissioning

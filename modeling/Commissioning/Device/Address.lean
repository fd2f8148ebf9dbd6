import Commissioning.Text.Blank
import Commissioning.Value.Mismatch

/-!
Device addresses: sixteen hexadecimal digits, written in pairs. Callers may leave the colons out,
put blanks anywhere and use capital letters or the ligature of two of them, so several texts stand
for one address:

    00:1F:ee:00:00:00:12:34 ─┐
    001fee0000001234 ────────┴─read?──▶ 001fee0000001234 ──text──▶ 00:1f:ee:00:00:00:12:34
-/
namespace Commissioning

/-- An address by its digits, in small letters. -/
structure Address where
  digits : List Char
  deriving DecidableEq, Repr

namespace Address

/-- The number of digits. -/
def length : Nat := 16

/-- A hexadecimal digit; those of other scripts are none. -/
def isDigit (c : Char) : Bool :=
  ('0' ≤ c && c ≤ '9') || ('a' ≤ c && c ≤ 'f') || ('A' ≤ c && c ≤ 'F')

/-- The letters that a character stands for. Of all ligatures only one is made of digits. -/
def unligated (c : Char) : List Char := if c = 'ﬀ' then ['f', 'f'] else [c]

/-- What is left out when an address is read. -/
def isSeparator (c : Char) : Bool := c == ':' || Text.isBlank c

/-- The address of a text. -/
def read? (s : String) : Option Address :=
  let digits := (s.toList.filter fun c => !isSeparator c).flatMap unligated
  if digits.length = length ∧ digits.all isDigit then some ⟨digits.map Char.toLower⟩ else none

/-- Pairs of digits with colons between them. -/
def paired : List Char → List Char
  | a :: b :: c :: rest => a :: b :: ':' :: paired (c :: rest)
  | rest => rest

/-- An address as messages show it. -/
def text (a : Address) : String := String.ofList (paired a.digits)

/-- The two ways in which a value fails to be an address. -/
inductive Unreadable where
  /-- A text, or octets, of another form. -/
  | malformed
  /-- A value that is not treated as a text at all. -/
  | noText (e : Mismatch)

/-- The address that a value names; nothing names none. -/
def ofValue (v : Value) : Except Unreadable (Option Address) :=
  match v with
  | .null => .ok none
  | .str s => match read? s with
    | some a => .ok (some a)
    | none => .error .malformed
  | .bytes _ => .error .malformed
  | v => .error (.noText (.missingPart v.typeName "replace"))

end Address

end Commissioning

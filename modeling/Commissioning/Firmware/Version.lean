import Commissioning.Logged
import Commissioning.Text.Blank
import Commissioning.Text.Digit
import Commissioning.Text.Sections

/-!
Firmware versions. A build identifier may be decorated in front; what follows has to be a complete
semantic version, perhaps behind blanks and one more mark:

    [vV= \t]… blanks [vV] major . minor . patch [ - id . id … ] [ + build ]

Build metadata carry no precedence and are dropped. An identifier that is not a version is taken
for old firmware.
-/
namespace Commissioning

/-- A semantic version without build metadata. -/
structure Version where
  major : Nat
  minor : Nat
  patch : Nat
  /-- The prerelease tag. -/
  prerelease : Option (List Char)
  /-- The version as it was written. -/
  text : List Char
  deriving DecidableEq, Repr

namespace Version
open Text

/-- A number without leading zeros. Its first digit is an ASCII one. -/
def isNumber : List Char → Bool
  | ['0'] => true
  | c :: rest => '1' ≤ c && c ≤ '9' && rest.all isDigit
  | [] => false

/-- A character of a tag. -/
def isTagChar (c : Char) : Bool := c.isAlphanum || c == '-'

/-- A section of a prerelease tag: a number, or digits and then a word that starts with a letter
or a hyphen. -/
def isPrereleaseId (id : List Char) : Bool :=
  isNumber id || match id.dropWhile isDigit with
    | c :: rest => (c.isAlpha || c == '-') && rest.all isTagChar
    | [] => false

/-- A section of build metadata. -/
def isBuildId (id : List Char) : Bool := !id.isEmpty && id.all isTagChar

/-- A tag whose sections are all well formed; no tag is well formed, too. -/
def tagFits (isId : List Char → Bool) : Option (List Char) → Bool
  | none => true
  | some tag => (sections '.' tag).all isId

/-- Without one letter that marks a version. -/
def unmarked : List Char → List Char
  | 'v' :: rest | 'V' :: rest => rest
  | s => s

/-- The version that a text writes: blanks around it and one mark in front do not count. -/
def parse? (s : List Char) : Option Version :=
  let (text, build) := cut '+' (unmarked (trim s))
  let (numbers, prerelease) := cut '-' text
  match sections '.' numbers with
  | [major, minor, patch] =>
    if isNumber major && isNumber minor && isNumber patch && tagFits isPrereleaseId prerelease &&
        tagFits isBuildId build then
      some {
        major := digitsValue major
        minor := digitsValue minor
        patch := digitsValue patch
        prerelease
        text }
    else none
  | _ => none

/-- A character that decorates a build identifier in front. -/
def isDecoration (c : Char) : Bool := c == 'v' || c == 'V' || c == '=' || c == ' ' || c == '\t'

/-- A build identifier without its decoration. -/
def undecorated (s : List Char) : List Char := (trim s).dropWhile isDecoration

/-- The version of a build identifier. -/
def ofBuild? (build : String) : Option Version := parse? (undecorated build.toList)

/-- A number of a version, which may be too long to be read. -/
def readNumber (n : Nat) : Except Mismatch Nat :=
  let count := (Nat.toDigits 10 n).length
  if Number.digitLimit < count then .error (.tooManyDigits count) else .ok n

/-- Whether numbers come after others. They are read one by one, and those behind the first that
differs are not. -/
def comesAfter : List Nat → List Nat → Except Mismatch Bool
  | n :: ns, m :: ms => do
    let n ← readNumber n
    if n = m then comesAfter ns ms else return m < n
  | _, _ => .ok false

/-- The numbers of a version, the weightiest first. -/
def numbers (v : Version) : List Nat := [v.major, v.minor, v.patch]

/-- The first version that takes structured writes. -/
def firstStructured : Version where
  major := 1
  minor := 9
  patch := 0
  prerelease := none
  text := ['1', '.', '9', '.', '0']

/-- Takes structured writes; a prerelease of the first such version does not. -/
def takesStructured (v : Version) : Except Mismatch Bool :=
  if v.text = firstStructured.text then .ok true
  else comesAfter v.numbers firstStructured.numbers

/-- The version of a build identifier that may be missing or anything. One that cannot be read is
reported. -/
def ofValue (build : Value) : Logged (Option Version) :=
  if !build.isTruthy then pure none
  else match ofBuild? build.toText with
    | some v => pure (some v)
    | none => ⟨[⟨.debug, "Unparsable firmware build id: " ++ build.literal⟩], .ok none⟩

end Version

/-- Whether the firmware of a build identifier takes structured writes. -/
def supportsStructuredWrite (build : Value) : Logged Bool := do
  match ← Version.ofValue build with
  | some v => .ofOutcome (ofMismatch v.takesStructured)
  | none => return false

end Commissioning

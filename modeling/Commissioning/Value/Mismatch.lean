import Commissioning.Number.Reader
import Commissioning.Value.Render

/-!
Values of the wrong shape: what is found where a number, octets, a collection or a name is
expected.
-/
namespace Commissioning

/-- What is wrong with a value. -/
inductive Mismatch where
  /-- A text that writes no integer. -/
  | integerText (v : Value)
  /-- More digits than an integer may have that is read. -/
  | tooManyDigits (count : Nat)
  /-- An integer with more digits than are written. -/
  | unwritable
  /-- A text that writes no number. -/
  | realText (v : Value)
  /-- No number, where an integer is to be made. -/
  | noInteger (v : Value)
  /-- No number, where a floating point number is to be made. -/
  | noReal (v : Value)
  /-- An undefined number has no integer part. -/
  | undefinedInteger
  /-- An infinite number has no integer part. -/
  | infiniteInteger
  /-- An integer beyond the floating point numbers. -/
  | integerTooLarge
  /-- A quotient beyond the floating point numbers. -/
  | quotientTooLarge
  /-- A division by zero, of integers or of floating point numbers. -/
  | zeroDivisor (real : Bool)
  /-- An operand that arithmetic does not know. -/
  | operand (v : Value)
  /-- A number outside 0 to 255 among octets. -/
  | octetRange
  /-- A negative number of octets. -/
  | negativeCount
  /-- A number of items that no collection can have. -/
  | countTooLarge
  /-- More items than there is room for. -/
  | noRoom
  /-- A text, where octets are to be made. -/
  | textOctets
  /-- A text, where octets are to be found in octets. -/
  | textAmongOctets
  /-- No collection of numbers, where octets are to be made. -/
  | noOctets (v : Value)
  /-- An item that is no integer. -/
  | noIndex (v : Value)
  /-- A value without items. -/
  | noItems (v : Value)
  /-- A value without items that could be looked for. -/
  | noContainer (v : Value)
  /-- A value without items that could be picked. -/
  | noPositions (v : Value)
  /-- A name in place of a position. -/
  | namedPosition (v : Value)
  /-- A value of this type cannot be asked for anything. -/
  | noCall (type : String)
  /-- A value that cannot be a key. -/
  | noKey (v : Value)
  /-- An item in place of a pair that has no items. -/
  | noPair (position : Nat)
  /-- An item in place of a pair that has another number of items. -/
  | pairLength (position length : Nat)
  /-- Named values are expected. -/
  | noNames (v : Value)
  /-- A name that has its own meaning already. -/
  | takenName (name : String)
  /-- A position past the end of a collection. -/
  | pastEnd (v : Value)
  /-- A name that is not there. -/
  | missingName (literal : String)
  /-- A part that a value of this type does not have. -/
  | missingPart (type part : String)
  /-- The greatest of no numbers. -/
  | greatestOfNone
  /-- A number that a type of `bits` bits cannot hold. -/
  | wordRange (n : Int) (signed : Bool) (bits : Nat)
  /-- A fixed list with another number of items. -/
  | fixedLength (found : Value) (count : Nat)
  /-- Too many octets for one length byte. -/
  | octetsTooLong
  /-- An attribute that is no array of the setup cluster. -/
  | noArrayAttribute (found : Value)

namespace Mismatch

/-- How many characters of a literal are shown where it is cut. -/
def shownLength : Nat := 200

/-- The beginning of a literal. Of octets no more than that many are looked at. -/
def shownLiteral (v : Value) : String :=
  let seen : Value := match v with
    | .bytes bs => .bytes (bs.take shownLength)
    | v => v
  String.ofList (seen.literal.toList.take shownLength)

/-- Whether a wording shows no integer that cannot be written. -/
def isShowable : Mismatch → Bool
  | .wordRange n .. => Number.isWritable n
  | .fixedLength found _ | .noArrayAttribute found => found.isShowable
  | _ => true

/-- The wording of a mismatch whose values can be shown. -/
def wording : Mismatch → String
  | .integerText v => "invalid literal for int() with base 10: " ++ shownLiteral v
  | .tooManyDigits count =>
    s!"Exceeds the limit ({Number.digitLimit} digits) for integer string conversion: value has " ++
      s!"{count} digits; use sys.set_int_max_str_digits() to increase the limit"
  | .unwritable =>
    s!"Exceeds the limit ({Number.digitLimit} digits) for integer string conversion; use " ++
      "sys.set_int_max_str_digits() to increase the limit"
  | .realText v => "could not convert string to float: " ++ v.literal
  | .noInteger v =>
    s!"int() argument must be a string, a bytes-like object or a real number, not '{v.typeName}'"
  | .noReal v => s!"float() argument must be a string or a real number, not '{v.typeName}'"
  | .undefinedInteger => "cannot convert float NaN to integer"
  | .infiniteInteger => "cannot convert float infinity to integer"
  | .integerTooLarge => "int too large to convert to float"
  | .quotientTooLarge => "integer division result too large for a float"
  | .zeroDivisor real => if real then "float division by zero" else "division by zero"
  | .operand v => s!"unsupported operand type: '{v.typeName}'"
  | .octetRange => "bytes must be in range(0, 256)"
  | .negativeCount => "negative count"
  | .countTooLarge => "cannot fit 'int' into an index-sized integer"
  | .noRoom => ""
  | .textOctets => "string argument without an encoding"
  | .textAmongOctets => "a bytes-like object is required, not 'str'"
  | .noOctets v => s!"cannot convert '{v.typeName}' object to bytes"
  | .noIndex v => s!"'{v.typeName}' object cannot be interpreted as an integer"
  | .noItems v => s!"'{v.typeName}' object is not iterable"
  | .noContainer v => s!"argument of type '{v.typeName}' is not iterable"
  | .noPositions v => s!"'{v.typeName}' object is not subscriptable"
  | .namedPosition (.str _) => "string indices must be integers, not 'str'"
  | .namedPosition v => s!"{v.typeName} indices must be integers or slices, not str"
  | .noCall type => s!"'{type}' object is not callable"
  | .noKey v => s!"unhashable type: '{v.typeName}'"
  | .noPair position =>
    s!"cannot convert dictionary update sequence element #{position} to a sequence"
  | .pairLength position length =>
    s!"dictionary update sequence element #{position} has length {length}; 2 is required"
  | .noNames v => s!"argument must be a mapping, not {v.typeName}"
  | .takenName name => s!"got multiple values for argument '{name}'"
  | .pastEnd (.bytes _) => "index out of range"
  | .pastEnd (.str _) => "string index out of range"
  | .pastEnd v => s!"{v.typeName} index out of range"
  | .missingName literal => literal
  | .missingPart type part => s!"'{type}' object has no attribute '{part}'"
  | .greatestOfNone => "max() arg is an empty sequence"
  | .wordRange n signed bits =>
    s!"{n} is not an " ++ (if signed then "signed" else "unsigned") ++ s!" {bits} bit integer"
  | .fixedLength found count => s!"Invalid length for {found.literal}: expected 1, got {count}"
  | .octetsTooLong => "OctetString is too long"
  | .noArrayAttribute found => s!"Not a DeviceSetup array attribute: {found.text}"

/-- The wording. A value that cannot be written is of no use in one, and is told in its place. -/
def message (e : Mismatch) : String := if e.isShowable then e.wording else wording .unwritable

end Mismatch

end Commissioning

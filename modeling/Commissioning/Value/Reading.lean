import Commissioning.Number.Reader
import Commissioning.Value.Mismatch

/-!
Reading a value as an integer, as a number, as octets or as a collection. A text or octets count as
the number they write, a fraction is cut off toward zero, and a number of octets stands for that
many zeros.
-/
namespace Commissioning.Value

/-- The characters of octets; one that is not ASCII is part of no number. -/
def charsOfOctets (bs : List UInt8) : List Char :=
  bs.map fun b => if b < 0x80 then Char.ofNat b.toNat else '?'

/-- The integer that a text or octets write, given their characters. -/
def integerOfChars (v : Value) (cs : List Char) : Except Mismatch Int :=
  (Number.readInteger cs).mapError fun
    | .malformed => .integerText v
    | .tooManyDigits count => .tooManyDigits count

/-- The number that a text or octets write, given their characters. -/
def realOfChars (v : Value) (cs : List Char) : Except Mismatch Binary64 :=
  match Number.readReal? cs with
  | some x => .ok x
  | none => .error (.realText v)

/-- The integer part of a number. -/
def integerPart (x : Binary64) : Except Mismatch Int :=
  match x.truncate? with
  | some n => .ok n
  | none => .error (if x = .nan then .undefinedInteger else .infiniteInteger)

/-- The floating point number nearest to an integer. -/
def realOfInt (n : Int) : Except Mismatch Binary64 :=
  match Binary64.ofInt? n with
  | some x => .ok x
  | none => .error .integerTooLarge

/-- The integer of a value. -/
def toInteger (v : Value) : Except Mismatch Int :=
  match v with
  | .bool b => .ok (if b then 1 else 0)
  | .int n | .status n => .ok n
  | .float x => integerPart x
  | .str s => integerOfChars v s.toList
  | .bytes bs => integerOfChars v (charsOfOctets bs)
  | _ => .error (.noInteger v)

/-- The floating point number of a value. -/
def toReal (v : Value) : Except Mismatch Binary64 :=
  match v with
  | .bool b => .ok (.ofNat (if b then 1 else 0))
  | .int n | .status n => realOfInt n
  | .float x => .ok x
  | .str s => realOfChars v s.toList
  | .bytes bs => realOfChars v (charsOfOctets bs)
  | _ => .error (.noReal v)

/-- The items of a collection: characters of a text, numbers of octets, keys of named values. -/
def items (v : Value) : Except Mismatch (List Value) :=
  match v with
  | .list xs | .tuple xs => .ok xs
  | .bytes bs => .ok (bs.map fun b => .int b.toNat)
  | .str s => .ok (s.toList.map fun c => .str c.toString)
  | .dict entries => .ok (entries.map fun (key, _) => .str key)
  | _ => .error (.noItems v)

/-- The octet of a number. -/
def octetOfInt (n : Int) : Except Mismatch UInt8 :=
  if 0 ≤ n ∧ n < 256 then .ok (UInt8.ofNat n.toNat) else .error .octetRange

/-- One octet from an item. -/
def toOctet (v : Value) : Except Mismatch UInt8 :=
  match v.asIndex? with
  | none => .error (.noIndex v)
  | some n => octetOfInt n

/-- The first number of items that no collection can have. -/
def countLimit : Nat := Nat.pow 2 63

/-- Whether a number is of the size of a count, whatever its sign. What is not is refused before the
sign is looked at. -/
def isCount (n : Int) : Bool := -countLimit ≤ n && n < countLimit

/-- The first size, in octets, for which there is no room. -/
def roomLimit : Nat := Nat.pow 2 35

/-- The size of an item of a list. -/
def itemSize : Nat := 8

/-- What a row of octets takes beside them. -/
def octetsFrame : Nat := 33

/-- As many zeros as a number tells. There has to be room for them as items, too. -/
def zeroOctets (n : Int) : Except Mismatch (List UInt8) :=
  if !isCount n then .error .countTooLarge
  else if n < 0 then .error .negativeCount
  else if countLimit ≤ n + octetsFrame then .error .countTooLarge
  else if roomLimit ≤ n * itemSize then .error .noRoom
  else .ok (List.replicate n.toNat 0)

/-- The octets of a value. -/
def toOctets (v : Value) : Except Mismatch (List UInt8) :=
  match v with
  | .bytes bs => .ok bs
  | .bool _ | .int _ | .status _ => match v.asIndex? with
    | some n => zeroOctets n
    | none => .error (.noOctets v)
  | .list xs | .tuple xs => xs.mapM toOctet
  | .dict entries => entries.mapM fun (key, _) => toOctet (.str key)
  | .str _ => .error .textOctets
  | _ => .error (.noOctets v)

/-- A value by its octets, as a list of numbers. -/
def ofOctets (bs : List UInt8) : Value := .list (bs.map fun b => .int b.toNat)

end Commissioning.Value

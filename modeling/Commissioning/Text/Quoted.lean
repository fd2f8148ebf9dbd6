import Commissioning.Text.Printable

/-!
Quoted literals of texts and of octets. The quote is the single one unless the content has a
single quote and no double one; what is not printable is escaped.
-/
namespace Commissioning.Text

/-- The quote that encloses a content. -/
def quoteFor (content : List Char) : Char :=
  if content.contains '\'' && !content.contains '"' then '"' else '\''

/-- The last `width` hexadecimal digits of a number, small letters. -/
def hex : Nat → Nat → List Char
  | 0, _ => []
  | width + 1, n => hex width (n / 16) ++ [Nat.digitChar (n % 16)]

/-- The number of an escaped character, in the shortest form that holds it. -/
def escapeNumber (n : Nat) : List Char :=
  if n < 0x100 then '\\' :: 'x' :: hex 2 n
  else if n < 0x10000 then '\\' :: 'u' :: hex 4 n
  else '\\' :: 'U' :: hex 8 n

/-- One character inside quotes. -/
def escapeChar (quote c : Char) : List Char :=
  if c = quote || c = '\\' then ['\\', c]
  else if c = '\n' then ['\\', 'n']
  else if c = '\r' then ['\\', 'r']
  else if c = '\t' then ['\\', 't']
  else if isPrintable c then [c]
  else escapeNumber c.toNat

/-- A content between its quotes. -/
def enclose (content : List Char) : List Char :=
  let quote := quoteFor content
  quote :: content.flatMap (escapeChar quote) ++ [quote]

/-- The quoted literal of a text. -/
def quoted (s : String) : String := String.ofList (enclose s.toList)

/-- One octet inside quotes: as an ASCII character, or by its number. -/
def escapeOctet (quote : Char) (b : UInt8) : List Char :=
  if b < 0x7f then escapeChar quote (Char.ofNat b.toNat) else escapeNumber b.toNat

/-- The quoted literal of octets, marked by a leading letter. -/
def quotedOctets (bs : List UInt8) : String :=
  let quote := quoteFor (bs.map fun b => Char.ofNat b.toNat)
  String.ofList ('b' :: quote :: bs.flatMap (escapeOctet quote) ++ [quote])

/-- The quoted literal of octets with all of them shown by their numbers, capital letters. -/
def numberedOctets (bs : List UInt8) : String :=
  let digits := bs.flatMap fun b => '\\' :: 'x' :: (hex 2 b.toNat).map Char.toUpper
  String.ofList ('b' :: '\'' :: digits ++ ['\''])

end Commissioning.Text

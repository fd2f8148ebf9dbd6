import Commissioning.Number.Reader
import Commissioning.Number.Shortest
import Commissioning.Text.Quoted
import Commissioning.Value.Basic
import Commissioning.Zcl.Status

/-!
Values as messages show them. A text stands for itself; within a collection, and wherever a
message asks for the literal, it is quoted. A value that is turned into a text of its own reads the
same, but for a status, which leaves its number out. A value with an integer that is too long to be
written cannot be shown in any of these ways.
-/
namespace Commissioning.Value

mutual

/-- The literal of a value. -/
def literal : Value → String
  | .null => "None"
  | .bool b => if b then "True" else "False"
  | .int n => toString n
  | .status code => Zcl.statusText code
  | .float x => x.text
  | .str s => Text.quoted s
  | .bytes bs => Text.quotedOctets bs
  | .list items => "[" ++ ", ".intercalate (literals items) ++ "]"
  | .tuple [item] => "(" ++ literal item ++ ",)"
  | .tuple items => "(" ++ ", ".intercalate (literals items) ++ ")"
  | .dict entries => "\x7b" ++ ", ".intercalate (entryLiterals entries) ++ "\x7d"
  | .typed _ content => s!"TypeValue(type={content.typeName}, value=" ++ literal content ++ ")"
  | .array _ elements =>
    "Array(type=AnonymousLVList, value=[" ++ ", ".intercalate (elementLiterals elements) ++ "])"

/-- The literals of the items of a collection. -/
def literals : List Value → List String
  | [] => []
  | item :: items => literal item :: literals items

/-- The literals of the elements of an array. Octets are all shown by their numbers. -/
def elementLiterals : List Value → List String
  | [] => []
  | .bytes bs :: elements => Text.numberedOctets bs :: elementLiterals elements
  | element :: elements => literal element :: elementLiterals elements

/-- The literals of named values. -/
def entryLiterals : List (String × Value) → List String
  | [] => []
  | (key, item) :: entries => (Text.quoted key ++ ": " ++ literal item) :: entryLiterals entries

end

mutual

/-- Whether all integers in a value can be written. -/
def isShowable : Value → Bool
  | .int n | .status n => Number.isWritable n
  | .list items | .tuple items | .array _ items => areShowable items
  | .dict entries => areShowableUnder entries
  | .typed _ content => content.isShowable
  | .null | .bool _ | .float _ | .str _ | .bytes _ => true

/-- Whether all integers in the items of a collection can be written. -/
def areShowable : List Value → Bool
  | [] => true
  | item :: items => item.isShowable && areShowable items

/-- Whether all integers in named values can be written. -/
def areShowableUnder : List (String × Value) → Bool
  | [] => true
  | (_, item) :: entries => item.isShowable && areShowableUnder entries

end

/-- The literal of pairs of a key and a value. -/
def pairsLiteral (pairs : List (Value × Value)) : String :=
  let items := pairs.map fun (key, item) => literal key ++ ": " ++ literal item
  "\x7b" ++ ", ".intercalate items ++ "\x7d"

/-- The text of a value within a message. -/
def text : Value → String
  | .str s => s
  | v => v.literal

/-- The text that a value is turned into. -/
def toText : Value → String
  | .status code => Zcl.statusLabel code
  | v => v.text

/-- The literal of a list of names. -/
def namesLiteral (names : List String) : String := literal (.list (names.map .str))

end Commissioning.Value

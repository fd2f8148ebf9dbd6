import Commissioning.Number.Quantity

/-!
Values as keys of a table. Lists, named values and arrays cannot be keys, nor can what holds them.
Numbers of the same value are one key, whatever their type.
-/
namespace Commissioning.Value

mutual

/-- Whether a value can be a key. -/
def isKey : Value → Bool
  | .list _ | .dict _ | .typed .. | .array .. => false
  | .tuple items => areKeys items
  | _ => true

/-- Whether all of some values can be keys. -/
def areKeys : List Value → Bool
  | [] => true
  | item :: items => isKey item && areKeys items

end

mutual

/-- Whether two keys are one. -/
def sameKey : Value → Value → Bool
  | .null, .null => true
  | .str s, .str t => s == t
  | .bytes a, .bytes b => a == b
  | .tuple items, .tuple others => sameKeys items others
  | v, w => match Quantity.ofOperand v, Quantity.ofOperand w with
    | .ok p, .ok q => p.same q
    | _, _ => false

/-- Whether two rows of keys agree key by key. -/
def sameKeys : List Value → List Value → Bool
  | [], [] => true
  | v :: vs, w :: ws => sameKey v w && sameKeys vs ws
  | _, _ => false

end

/-- Puts a value under a key: in place if the key is there, else at the end. -/
def putPair (pairs : List (Value × Value)) (key item : Value) : List (Value × Value) :=
  match pairs with
  | [] => [(key, item)]
  | (k, old) :: more =>
    if k.sameKey key then (k, item) :: more else (k, old) :: putPair more key item

/-- The pair that an item at a position stands for. -/
def pairOf (position : Nat) (item : Value) : Except Mismatch (Value × Value) :=
  match item.items with
  | .error _ => .error (.noPair position)
  | .ok [key, w] => if key.isKey then .ok (key, w) else .error (.noKey key)
  | .ok parts => .error (.pairLength position parts.length)

/-- Puts pairs, the first one at `position`, over those that are there. -/
def putPairs (pairs : List (Value × Value)) (position : Nat) :
    List Value → Except Mismatch (List (Value × Value))
  | [] => .ok pairs
  | item :: items => do
    let (key, w) ← pairOf position item
    putPairs (putPair pairs key w) (position + 1) items

/-- A value as a table: named values are one already, and anything else has to be a collection of
pairs. -/
def pairs (v : Value) : Except Mismatch (List (Value × Value)) :=
  match v with
  | .dict entries => .ok (entries.map fun (key, item) => (.str key, item))
  | v => do putPairs [] 0 (← v.items)

end Commissioning.Value

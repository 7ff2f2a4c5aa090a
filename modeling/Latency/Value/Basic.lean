import Latency.Calendar
import Latency.Json.Basic
/-!
# Values of a settings document

What a settings file can hold: JSON values, and beside them dates, octets, sets, pairs, and mappings
whose keys are any values that do not change. A collection may be within itself; it is then written
out as often as anything can tell, and its labels tell that it is one and the same.
-/

namespace Latency

/-- What tells collections apart: the number of the node that they come from, and for the pairs of
one list their number in it. -/
structure Label where
  node : Nat
  part : Nat := 0
deriving Repr, DecidableEq

/-- A value of a settings document. Collections without a label are within nothing else of
themselves. -/
inductive Value where
  | null
  | bool (b : Bool)
  | num (n : Number)
  | str (s : String)
  | date (d : Date)
  | moment (m : Moment)
  | octets (bs : List UInt8)
  | seq (items : List Value) (label : Option Label := none)
  | pair (first second : Value) (label : Option Label := none)
  | map (entries : List (Value × Value)) (label : Option Label := none)
  | set (items : List Value)

namespace Value

instance : Inhabited Value := ⟨.null⟩

mutual

def ofJson : Json → Value
  | .null => .null
  | .bool b => .bool b
  | .num n => .num n
  | .str s => .str s
  | .arr items => .seq (ofJsonItems items)
  | .obj members => .map (ofJsonMembers members)

def ofJsonItems : List Json → List Value
  | [] => []
  | x :: xs => ofJson x :: ofJsonItems xs

def ofJsonMembers : List (String × Json) → List (Value × Value)
  | [] => []
  | (k, v) :: ms => (.str k, ofJson v) :: ofJsonMembers ms

end

def lookupText (key : String) : List (Value × Value) → Option Value
  | [] => none
  | (.str k, v) :: rest => if k = key then some v else lookupText key rest
  | _ :: rest => lookupText key rest

def field (entries : List (Value × Value)) (key : String) : Value :=
  (lookupText key entries).getD .null

/-- Whether the value counts as present: not null, false, zero or empty. -/
def truthy : Value → Bool
  | .null => false
  | .bool b => b
  | .num n => !n.isZero
  | .str s => s != ""
  | .date _ => true
  | .moment _ => true
  | .octets bs => !bs.isEmpty
  | .seq items _ => !items.isEmpty
  | .pair _ _ _ => true
  | .map entries _ => !entries.isEmpty
  | .set items => !items.isEmpty

def asNumber? : Value → Option Number
  | .num n => some n
  | .bool b => some (.int (if b then 1 else 0))
  | _ => none

/-- Whether two keys of a mapping are one: numbers and truth values go by their numeric value. -/
def sameKey (a b : Value) : Bool :=
  match a.asNumber?, b.asNumber? with
  | some x, some y => x.equals y
  | none, none =>
    match a, b with
    | .null, .null => true
    | .str s, .str t => s == t
    | .date d, .date e => d == e
    | .moment m, .moment n => m.same n
    | .octets x, .octets y => x == y
    | _, _ => false
  | _, _ => false

end Value

end Latency

import Latency.Number
/-!
# JSON values

Values with ordered objects. An object keeps its members in the order of their first appearance; a
repeated key keeps its place and takes the last value.
-/

namespace Latency

inductive Json where
  | null
  | bool (b : Bool)
  | num (n : Number)
  | str (s : String)
  | arr (items : List Json)
  | obj (members : List (String × Json))

namespace Json

instance : Inhabited Json := ⟨.null⟩

def int (n : Int) : Json := .num (.int n)

def float (x : Float) : Json := .num (.float x)

/-- Sets a member: in place if the key is there, else at the end. -/
def put {α : Type} (key : String) (value : α) : List (String × α) → List (String × α)
  | [] => [(key, value)]
  | (k, v) :: rest => if k = key then (k, value) :: rest else (k, v) :: put key value rest

def ofMembers (members : List (String × Json)) : Json :=
  .obj (members.foldl (fun acc m => put m.1 m.2 acc) [])

def get? (key : String) : Json → Option Json
  | .obj members => members.lookup key
  | _ => none

def has (key : String) (j : Json) : Bool :=
  (j.get? key).isSome

def isObject : Json → Bool
  | .obj _ => true
  | _ => false

/-- Whether the value counts as present: not null, false, zero or empty. -/
def truthy : Json → Bool
  | .null => false
  | .bool b => b
  | .num n => !n.isZero
  | .str s => s != ""
  | .arr items => !items.isEmpty
  | .obj members => !members.isEmpty

/-- Equality with an integer, in which truth values count as 0 and 1 and doubles by their value. -/
def equalsInt (n : Int) : Json → Bool
  | .bool b => n == (if b then 1 else 0)
  | .num m => m.equals (.int n)
  | _ => false

/-- The value as a number, if it is one; truth values count as 0 and 1. -/
def number? : Json → Option Number
  | .num n => some n
  | .bool b => some (.int (if b then 1 else 0))
  | _ => none

mutual

/-- Equality of values: numbers and truth values go by their numeric value, objects by their members
in any order. -/
def equals : Json → Json → Bool
  | .null, .null => true
  | .str s, .str t => s == t
  | .arr xs, .arr ys => equalItems xs ys
  | .obj ms, .obj ns => ms.length == ns.length && equalMembers ms ns
  | .bool a, w => (w.number?).any fun m => (Number.int (if a then 1 else 0)).equals m
  | .num n, w => (w.number?).any fun m => n.equals m
  | _, _ => false

def equalItems : List Json → List Json → Bool
  | [], [] => true
  | x :: xs, y :: ys => equals x y && equalItems xs ys
  | _, _ => false

/-- Whether other members have these keys with equal values. -/
def equalMembers : List (String × Json) → List (String × Json) → Bool
  | [], _ => true
  | (k, v) :: rest, others =>
    (match others.lookup k with
     | some w => equals v w
     | none => false) && equalMembers rest others

end

end Json

end Latency

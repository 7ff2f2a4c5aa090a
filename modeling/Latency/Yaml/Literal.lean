import Latency.Decimal.Reading
import Latency.Text.Numeral
import Latency.Value.Basic
import Latency.Yaml.Defect
import Latency.Yaml.Kind
import Latency.Yaml.Timestamp
/-!
# Literals

What the text of a scalar denotes, given what it is to become.
-/

namespace Latency.Yaml

/-! ## Numbers -/

def signed (cs : List Char) : Except Defect (Bool × List Char) :=
  match cs with
  | [] => .error .emptyNumber
  | '-' :: rest => .ok (true, rest)
  | '+' :: rest => .ok (false, rest)
  | _ => .ok (false, cs)

def places (cs : List Char) : List (List Char) :=
  cs.splitOn ':'

/-- An integer without its sign: in base two, eight or sixteen by the marks in front, in base sixty
with colons, else in base ten. -/
def magnitude (cs : List Char) : Except Defect Int :=
  match cs with
  | ['0'] => .ok 0
  | '0' :: 'b' :: rest => orMalformed (Text.intInBase? 2 rest)
  | '0' :: 'x' :: rest => orMalformed (Text.intInBase? 16 rest)
  | '0' :: _ => orMalformed (Text.intInBase? 8 cs)
  | [] => .error .emptyNumber
  | _ =>
    if cs.contains ':' then do
      let ds ← orMalformed ((places cs).mapM (Text.intInBase? 10))
      return ds.foldl (fun n d => 60 * n + d) 0
    else orMalformed (Text.intInBase? 10 cs)

def readInt (s : String) : Except Defect Int := do
  let (negative, rest) ← signed (s.toList.filter (· != '_'))
  let n ← magnitude rest
  return if negative then -n else n

/-- The sum of places in base sixty, least first. What a place counts has to be a double. -/
def sumPlaces : List Float → Int → Float → Except Defect Float
  | [], _, total => .ok total
  | d :: rest, base, total =>
    let unit := Decimal.ofInt base
    if unit.isInf then .error .outOfRange else sumPlaces rest (60 * base) (total + d * unit)

def plainDigits (s : String) : List Char :=
  (s.toList.filter (· != '_')).map Char.toLower

def nanSign : List Char := ".nan".toList

def readFloat (s : String) : Except Defect Float := do
  let (negative, rest) ← signed (plainDigits s)
  let sign : Float := if negative then -1.0 else 1.0
  if rest = ".inf".toList then return sign * (1.0 / 0.0)
  else if rest = nanSign then return 0.0 / 0.0
  else if rest.contains ':' then
    let ds ← orMalformed ((places rest).mapM Decimal.floatOfText?)
    return sign * (← sumPlaces ds.reverse 1 0.0)
  else
    let x ← orMalformed (Decimal.floatOfText? rest)
    return sign * x

def isNanSign (s : String) : Bool :=
  match signed (plainDigits s) with
  | .ok (_, rest) => rest == nanSign
  | .error _ => false

/-! ## Other kinds -/

def digit64? (c : Char) : Option Nat :=
  let n := c.toNat
  if 'A' ≤ c ∧ c ≤ 'Z' then some (n - 65)
  else if 'a' ≤ c ∧ c ≤ 'z' then some (n - 71)
  else if '0' ≤ c ∧ c ≤ '9' then some (n + 4)
  else if c = '+' then some 62
  else if c = '/' then some 63
  else none

/-- Octets written in base sixty-four. `count` digits of a group of four are read, of which the bits
in `left` are still to be used; other characters are passed over. -/
def octets64 (count left pads : Nat) : List Char → Option (List UInt8)
  | [] => if count = 0 then some [] else none
  | '=' :: rest =>
    if 2 ≤ count then
      if 4 ≤ count + (pads + 1) then some [] else octets64 count left (pads + 1) rest
    else octets64 count left pads rest
  | c :: rest =>
    match digit64? c with
    | none => octets64 count left pads rest
    | some d =>
      match count with
      | 0 => octets64 1 d 0 rest
      | 1 => (octets64 2 (d % 16) 0 rest).map (UInt8.ofNat (left * 4 + d / 16) :: ·)
      | 2 => (octets64 3 (d % 4) 0 rest).map (UInt8.ofNat (left * 16 + d / 4) :: ·)
      | _ => (octets64 0 0 0 rest).map (UInt8.ofNat (left * 64 + d) :: ·)

def readOctets (s : String) : Except Defect (List UInt8) :=
  if s.toList.all fun c => decide (c.toNat < 128) then orMalformed (octets64 0 0 0 s.toList)
  else .error .malformed

def readBool (s : String) : Except Defect Bool :=
  match Kind.truths.lookup (String.ofList (s.toList.map Char.toLower)) with
  | some b => .ok b
  | none => .error .noTruth

def readTimestamp (s : String) : Except Defect Value :=
  match Timestamp.ofText? s.toList with
  | none => .error .noTimestamp
  | some t =>
    if t.isValid then
      .ok (match t with
        | .date d => .date d
        | .moment m => .moment m)
    else .error .malformed

def literal (kind : Kind) (s : String) : Except Defect Value :=
  match kind with
  | .null => .ok .null
  | .str => .ok (.str s)
  | .bool => (readBool s).map .bool
  | .int => (readInt s).map fun n => .num (.int n)
  | .float => (readFloat s).map fun x => .num (.float x)
  | .octets => (readOctets s).map .octets
  | .timestamp => readTimestamp s
  | _ => .error .malformed

end Latency.Yaml

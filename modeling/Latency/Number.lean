import Latency.Decimal.Text
import Latency.Text.Digit
/-!
# Numbers

A number of a document is an integer of any size or a double. Comparison is exact across the two
kinds; arithmetic stays exact on integers and goes over to doubles as soon as one is met.
-/

namespace Latency

inductive Fault where
  /-- A result does not fit the range of doubles, or infinity was to become an integer. -/
  | overflow
  /-- What is not a number was to become an integer. -/
  | notANumber
  | noSamples
  /-- A value that is no response was to be summed up. -/
  | noResponse
deriving Repr, DecidableEq

inductive Number where
  | int (n : Int)
  | float (x : Float)

namespace Number

instance : Inhabited Number := ⟨.int 0⟩

def compareFinite (negative : Bool) (mantissa : Nat) (exponent n : Int) : Ordering :=
  let (num, den) := Decimal.ratio mantissa exponent
  let value : Int := if negative then -(num : Int) else num
  compare value (n * den)

/-- The exact order; `none` when one side is not a number. -/
def compare? : Number → Number → Option Ordering
  | .int a, .int b => some (compare a b)
  | .float x, .float y =>
    if x < y then some .lt else if y < x then some .gt else if x == y then some .eq else none
  | .float x, .int n =>
    match Decimal.parts x with
    | .nan => none
    | .infinite negative => some (if negative then .lt else .gt)
    | .finite negative m e => some (compareFinite negative m e n)
  | .int n, .float x =>
    match Decimal.parts x with
    | .nan => none
    | .infinite negative => some (if negative then .gt else .lt)
    | .finite negative m e => some (compareFinite negative m e n).swap

/-- Strictly smaller; never true of what is not a number. -/
def less (a b : Number) : Bool :=
  a.compare? b == some .lt

def equals (a b : Number) : Bool :=
  a.compare? b == some .eq

/-- The number as a double; an integer beyond their range has none. -/
def toFloat : Number → Except Fault Float
  | .float x => .ok x
  | .int n =>
    let x := Decimal.ofInt n
    if x.isInf then .error .overflow else .ok x

def add : Number → Number → Except Fault Number
  | .int a, .int b => .ok (.int (a + b))
  | a, b => do return .float ((← a.toFloat) + (← b.toFloat))

def divCount (a : Number) (count : Nat) : Except Fault Number :=
  match a with
  | .int n =>
    let x := Decimal.nearest (decide (n < 0)) n.natAbs count
    if x.isInf then .error .overflow else .ok (.float x)
  | .float x => .ok (.float (x / Decimal.ofInt count))

def floor (x : Float) : Except Fault Int :=
  match Decimal.parts x with
  | .nan => .error .notANumber
  | .infinite _ => .error .overflow
  | .finite negative m e =>
    let (num, den) := Decimal.ratio m e
    .ok (Int.fdiv (if negative then -(num : Int) else num) den)

/-- Rounded to hundredths, a half going up. -/
def hundredths (a : Number) : Except Fault Number := do
  let x ← a.toFloat
  let n ← floor (x * 100.0 + 0.5)
  return .float (Decimal.ofInt n / 100.0)

def tenths (a : Number) : Except Fault String := do
  return Decimal.floatTenths (← a.toFloat)

/-- Whether the number can be shown: an integer may have too many digits for that. -/
def isWritable : Number → Bool
  | .int n => decide ((Nat.toDigits 10 n.natAbs).length ≤ Text.mostDigits)
  | .float _ => true

/-- The number in full, writable or not: an integer by its digits, a double by its shortest text. -/
def text : Number → String
  | .int n => toString n
  | .float x => Decimal.floatText x

def isZero : Number → Bool
  | .int n => n == 0
  | .float x => x == 0.0

end Number

end Latency

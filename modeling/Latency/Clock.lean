import Latency.Number
/-!
# Clocks and measured times

Times are doubles when the program runs and exact rationals where its rules are stated. A clock
needs addition, subtraction and comparison; what is measured is also averaged, rounded to hundredths
and written with one decimal place.
-/

namespace Latency

class Clock (τ : Type) where
  zero : τ
  seconds : Nat → τ
  add : τ → τ → τ
  /-- Whether a time can be added to a reading. The longest wait that a platform allows, hundreds of
  years, is no part of it. -/
  fits : τ → Bool
  sub : τ → τ → τ
  before : τ → τ → Bool
  upTo : τ → τ → Bool
  millis : τ → τ
  tenths : τ → String

class Measure (τ : Type) extends Clock τ where
  /-- The mean of samples, added from the left. -/
  mean : List τ → Except Fault τ
  /-- Rounded to hundredths, a half going up. -/
  hundredths : τ → Except Fault τ
  tenths? : τ → Except Fault String

namespace Clock

variable {τ : Type} [Clock τ]

def latest (a b : τ) : τ :=
  if before a b then b else a

def elapsed (start now : τ) : τ :=
  millis (sub now start)

end Clock

/-- A reading as a double; integers beyond their range become infinite. -/
def Number.reading : Number → Float
  | .float x => x
  | .int n => Decimal.ofInt n

instance : Clock Number where
  zero := .float 0.0
  seconds n := .float (Decimal.ofInt n)
  add a b := .float (a.reading + b.reading)
  fits a := a.toFloat.isOk
  sub a b := .float (a.reading - b.reading)
  before a b := a.less b
  upTo a b := a.less b || a.equals b
  millis a := .float (a.reading * 1000.0)
  tenths a := Decimal.floatTenths a.reading

def Number.sum (xs : List Number) : Except Fault Number :=
  xs.foldlM Number.add (.int 0)

instance : Measure Number where
  mean xs := do (← Number.sum xs).divCount xs.length
  hundredths := Number.hundredths
  tenths? := Number.tenths

/-- Exact readings have no range that a time could leave, so every time fits. -/
instance : Clock Rat where
  zero := 0
  seconds n := n
  add := (· + ·)
  fits _ := true
  sub := (· - ·)
  before a b := decide (a < b)
  upTo a b := decide (a ≤ b)
  millis := (· * 1000)
  tenths x := Decimal.tenthsText (decide (x < 0)) x.num.natAbs x.den

instance : Measure Rat where
  mean xs := .ok (xs.foldl (· + ·) 0 / xs.length)
  hundredths x := .ok (((x * 100 + 1 / 2).floor : Rat) / 100)
  tenths? x := .ok (Clock.tenths x)

end Latency

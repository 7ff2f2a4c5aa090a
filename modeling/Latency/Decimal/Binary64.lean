import Latency.Decimal.Rounding
/-!
# Doubles as exact numbers

A finite double is a sign, a whole number and a power of two. This module takes doubles apart and
finds the double nearest to a quotient, a tie going to the even mantissa.
-/

namespace Latency.Decimal

/-- What a double stands for; a finite one is `± mantissa * 2 ^ exponent`. -/
inductive Parts where
  | finite (negative : Bool) (mantissa : Nat) (exponent : Int)
  | infinite (negative : Bool)
  | nan
deriving Repr, DecidableEq

def Parts.ofBits (bits : Nat) : Parts :=
  let negative := decide (bits / Nat.pow 2 63 = 1)
  let biased : Nat := bits / Nat.pow 2 52 % Nat.pow 2 11
  let fraction : Nat := bits % Nat.pow 2 52
  if biased = 2047 then if fraction = 0 then .infinite negative else .nan
  else if biased = 0 then .finite negative fraction (-1074)
  else .finite negative (fraction + Nat.pow 2 52) ((biased : Int) - 1075)

def parts (x : Float) : Parts :=
  Parts.ofBits x.toBits.toNat

def ratio (mantissa : Nat) (exponent : Int) : Nat × Nat :=
  match exponent with
  | .ofNat e => (mantissa * Nat.pow 2 e, 1)
  | .negSucc e => (mantissa, Nat.pow 2 (e + 1))

def binaryExponent (num den : Nat) : Int :=
  let e := (num.log2 : Int) - den.log2
  let reached := match e with
    | .ofNat k => decide (den * Nat.pow 2 k ≤ num)
    | .negSucc k => decide (den ≤ num * Nat.pow 2 (k + 1))
  if reached then e else e - 1

/-- The bits of the double nearest to `num / den`; past the largest double, those of infinity. -/
def nearestBits (num den : Nat) : Nat :=
  if num = 0 then 0
  else
    let exponent := max (binaryExponent num den - 52) (-1074)
    let mantissa := match exponent with
      | .ofNat e => roundQuotient num (den * Nat.pow 2 e)
      | .negSucc e => roundQuotient (num * Nat.pow 2 (e + 1)) den
    let bits :=
      if mantissa < Nat.pow 2 52 then mantissa
      else (exponent + 1075).toNat * Nat.pow 2 52 + (mantissa - Nat.pow 2 52)
    min bits (2047 * Nat.pow 2 52)

def nearest (negative : Bool) (num den : Nat) : Float :=
  Float.ofBits (UInt64.ofNat (nearestBits num den + if negative then Nat.pow 2 63 else 0))

/-- The double nearest to `± digits * 10 ^ exponent`. Beyond the range of doubles the power is not
worked out. -/
def ofDecimal (negative : Bool) (digits : Nat) (exponent : Int) : Float :=
  let reach := (digitCount digits : Int) + exponent
  if digits = 0 ∨ reach < -330 then nearest negative 0 1
  else if 310 < reach then nearest negative (Nat.pow 2 1024) 1
  else
    match exponent with
    | .ofNat e => nearest negative (digits * Nat.pow 10 e) 1
    | .negSucc e => nearest negative digits (Nat.pow 10 (e + 1))

def ofInt (n : Int) : Float :=
  nearest (decide (n < 0)) n.natAbs 1

end Latency.Decimal

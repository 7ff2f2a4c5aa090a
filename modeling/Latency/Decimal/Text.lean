import Latency.Decimal.Shortest
/-!
# Numbers as text

Doubles in their shortest form, and doubles with one fixed decimal place.
-/

namespace Latency.Decimal

/-- How shortest decimals are laid out: positional notation is used while the exponent of the first
digit lies in `least .. most`; an exponent has a sign and at least `exponentDigits` digits. -/
structure Layout where
  least : Int
  most : Int
  exponentDigits : Nat

/-- Positional from 0.0001 up to sixteen whole digits, then `1e-05` and `1e+16`. -/
def layout : Layout := ⟨-4, 15, 2⟩

private def digitText (ds : List Nat) : String :=
  String.ofList (ds.map Nat.digitChar)

private def zeros (n : Nat) : String :=
  String.ofList (List.replicate n '0')

def Digits.text (l : Layout) (d : Digits) : String :=
  let exponent := d.point - 1
  let count := d.digits.length
  if l.least ≤ exponent ∧ exponent ≤ l.most then
    if d.point ≤ 0 then "0." ++ zeros (-d.point).toNat ++ digitText d.digits
    else
      let whole := d.point.toNat
      if count ≤ whole then digitText d.digits ++ zeros (whole - count) ++ ".0"
      else digitText (d.digits.take whole) ++ "." ++ digitText (d.digits.drop whole)
  else
    let size := toString exponent.natAbs
    let mantissa :=
      match d.digits with
      | [] => "0"
      | [x] => digitText [x]
      | x :: rest => digitText [x] ++ "." ++ digitText rest
    mantissa ++ "e" ++ (if exponent < 0 then "-" else "+") ++
      zeros (l.exponentDigits - size.length) ++ size

private def signText (negative : Bool) : String :=
  if negative then "-" else ""

def floatText (x : Float) : String :=
  match parts x with
  | .nan => "nan"
  | .infinite negative => signText negative ++ "inf"
  | .finite negative m e => signText negative ++ (shortest m e).text layout

/-- The exact quotient `± num / den` rounded to one decimal place, a half going to the
even digit. -/
def tenthsText (negative : Bool) (num den : Nat) : String :=
  let t := roundQuotient (10 * num) den
  signText negative ++ toString (t / 10) ++ "." ++ toString (t % 10)

def floatTenths (x : Float) : String :=
  match parts x with
  | .nan => "nan"
  | .infinite negative => signText negative ++ "inf"
  | .finite negative m e => tenthsText negative (ratio m e).1 (ratio m e).2

end Latency.Decimal

import Latency.Text.Blank
import Latency.Text.Digit
/-!
# Integers in text

An integer may have white space around it, one sign, digits of any script and single underscores
between digits. In another base than ten the digits may have the mark of that base in front. In base
ten there is a limit to how many digits are read, zeros in front among them; in a base that is a
power of two there is none.
-/

namespace Latency.Text

def decimal? (digits : List Char) : Option Nat :=
  if mostDigits < digits.countP (· != '_') then none else digitsValue? 0 false digits

def intOfText? (s : String) : Option Int :=
  match trimBy isPadding s.toList with
  | '-' :: digits => (decimal? digits).map fun n => -(n : Int)
  | '+' :: digits => (decimal? digits).map Int.ofNat
  | digits => (decimal? digits).map Int.ofNat

def placeValue? (c : Char) : Option Nat :=
  match digitValue? c with
  | some d => some d
  | none =>
    let small := c.toLower
    if 'a' ≤ small ∧ small ≤ 'z' then some (small.toNat - 87) else none

def natInBase? (base : Nat) (ds : List Char) : Option Nat :=
  if ds.isEmpty || (base == 10 && decide (mostDigits < ds.length)) then none
  else ds.foldlM (fun n c =>
    match placeValue? c with
    | some d => if d < base then some (base * n + d) else none
    | none => none) 0

def baseMarks : List (Nat × Char) :=
  [(2, 'b'), (8, 'o'), (16, 'x')]

def dropBaseMark (base : Nat) : List Char → List Char
  | '0' :: c :: rest => if baseMarks.lookup base = some c.toLower then rest else '0' :: c :: rest
  | cs => cs

def intInBase? (base : Nat) (cs : List Char) : Option Int :=
  match trimBy isPadding cs with
  | '-' :: digits => (natInBase? base (dropBaseMark base digits)).map fun n => -(n : Int)
  | '+' :: digits => (natInBase? base (dropBaseMark base digits)).map Int.ofNat
  | digits => (natInBase? base (dropBaseMark base digits)).map Int.ofNat

end Latency.Text

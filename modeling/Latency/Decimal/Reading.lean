import Latency.Decimal.Shortest
import Latency.Text.Blank
import Latency.Text.Digit
/-!
# Doubles in text

A double may have white space around it and one sign. It is a decimal with digits of any script, of
which single underscores may be between two digits, or a word for infinity or for what is not a
number.
-/

namespace Latency.Decimal

def plainDigit (c : Char) : Char :=
  match Text.digitValue? c with
  | some d => Nat.digitChar d
  | none => c

/-- The text without its underscores, each of which has to stand between two digits. -/
def dropUnderscores? (afterDigit : Bool) : List Char → Option (List Char)
  | [] => some []
  | '_' :: rest =>
    if afterDigit && rest.head?.any Text.isDigit then dropUnderscores? false rest else none
  | c :: rest => (dropUnderscores? (Text.isDigit c) rest).map (c :: ·)

def splitSign : List Char → Bool × List Char
  | '-' :: rest => (true, rest)
  | '+' :: rest => (false, rest)
  | cs => (false, cs)

/-- The exponent that a text is; the empty text stands for none. -/
def exponent? : List Char → Option Int
  | [] => some 0
  | c :: rest =>
    let (negative, ds) := splitSign rest
    if (c = 'e' ∨ c = 'E') ∧ !ds.isEmpty ∧ ds.all Text.isDigit then
      some (if negative then -(Text.natOfDigits ds : Int) else Text.natOfDigits ds)
    else none

def decimal? (negative : Bool) (cs : List Char) : Option Float :=
  let whole := cs.takeWhile Text.isDigit
  let rest := cs.dropWhile Text.isDigit
  let (tail, rest) :=
    match rest with
    | '.' :: rest => (rest.takeWhile Text.isDigit, rest.dropWhile Text.isDigit)
    | rest => ([], rest)
  if whole.isEmpty && tail.isEmpty then none
  else
    (exponent? rest).map fun e =>
      ofDecimal negative (Text.natOfDigits (whole ++ tail)) (e - tail.length)

def infinityWords : List String := ["inf", "infinity"]

def floatOfText? (cs : List Char) : Option Float := do
  let cs ← dropUnderscores? false ((Text.trimBy Text.isPadding cs).map plainDigit)
  let (negative, body) := splitSign cs
  let word := String.ofList (body.map Char.toLower)
  if infinityWords.contains word then return if negative then -1.0 / 0.0 else 1.0 / 0.0
  else if word = "nan" then return 0.0 / 0.0
  else decimal? negative body

end Latency.Decimal

import Latency.Calendar
import Latency.Text.Digit
/-!
# Timestamps

A date, or a date with a time of day, a fraction of a second and an offset from UTC.
-/

namespace Latency.Yaml

inductive Timestamp where
  | date (d : Date)
  | moment (m : Moment)

def Timestamp.isValid : Timestamp → Bool
  | .date d => d.isValid
  | .moment m => m.isValid

namespace Timestamp

def digits (count : Nat) (cs : List Char) : Option (Nat × List Char) :=
  let ds := cs.take count
  if ds.length = count ∧ ds.all Text.isDigit then some (Text.natOfDigits ds, cs.drop count)
  else none

def oneOrTwo (cs : List Char) : Option (Nat × List Char) :=
  (digits 2 cs).orElse fun _ => digits 1 cs

def skip (c : Char) : List Char → Option (List Char)
  | [] => none
  | x :: rest => if x = c then some rest else none

def isGap (c : Char) : Bool := c == ' ' || c == '\t'

def toTime : List Char → Option (List Char)
  | [] => none
  | c :: rest =>
    if c = 'T' ∨ c = 't' then some rest else if isGap c then some (rest.dropWhile isGap) else none

/-- The microseconds of a fraction, and the text behind it; further digits are left out. -/
def fraction : List Char → Nat × List Char
  | '.' :: rest =>
    let ds := (rest.takeWhile Text.isDigit).take 6
    (Text.natOfDigits (ds ++ List.replicate (6 - ds.length) '0'), rest.dropWhile Text.isDigit)
  | cs => (0, cs)

def offsetMinutes (cs : List Char) : Option Nat := do
  let (hours, rest) ← oneOrTwo cs
  match rest with
  | [] => return 60 * hours
  | _ =>
    let (minutes, rest) ← (skip ':' rest).bind (digits 2)
    if rest.isEmpty then return 60 * hours + minutes else none

def zone (cs : List Char) : Option (Option Int) :=
  if cs.isEmpty then some none
  else
    match cs.dropWhile isGap with
    | ['Z'] => some (some 0)
    | '+' :: rest => (offsetMinutes rest).map fun n => some (n : Int)
    | '-' :: rest => (offsetMinutes rest).map fun n => some (-(n : Int))
    | _ => none

/-- The timestamp that a text has the form of; it need not be valid. One line end may stand behind
it. -/
def ofText? (cs : List Char) : Option Timestamp := do
  let (year, rest) ← digits 4 (if cs.getLast? = some '\n' then cs.dropLast else cs)
  let (month, rest) ← (skip '-' rest).bind oneOrTwo
  let (day, rest) ← (skip '-' rest).bind oneOrTwo
  if rest.isEmpty then return .date ⟨year, month, day⟩
  else
    let (hour, rest) ← (toTime rest).bind oneOrTwo
    let (minute, rest) ← (skip ':' rest).bind (digits 2)
    let (second, rest) ← (skip ':' rest).bind (digits 2)
    let (micros, rest) := fraction rest
    let offset ← zone rest
    return .moment ⟨⟨year, month, day⟩, hour, minute, second, micros, offset⟩

end Timestamp

end Latency.Yaml

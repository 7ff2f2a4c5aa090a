import Latency.Json.Basic
import Latency.Text.Digit
import Latency.Text.Utf8
/-!
# Reading JSON

A strict reader: no trailing commas, no leading zeros, no raw control characters in strings, blanks
only of the four kinds the format names. Beyond the format it takes `NaN`, `Infinity` and
`-Infinity`. Integers have a limit to their digits.
-/

namespace Latency.Json

def isGap (c : Char) : Bool :=
  c == ' ' || c == '\t' || c == '\n' || c == '\r'

def skipGap (cs : List Char) : List Char :=
  cs.dropWhile isGap

def unitOf? (a b c d : Char) : Option Nat := do
  let high := (← Text.hexValue? a) * 16 + (← Text.hexValue? b)
  let low := (← Text.hexValue? c) * 16 + (← Text.hexValue? d)
  return high * 256 + low

def isHighUnit (n : Nat) : Bool := decide (0xd800 ≤ n) && decide (n < 0xdc00)

def isLowUnit (n : Nat) : Bool := decide (0xdc00 ≤ n) && decide (n < 0xe000)

def shortEscape? : Char → Option Char
  | '"' => some '"'
  | '\\' => some '\\'
  | '/' => some '/'
  | 'b' => some '\x08'
  | 'f' => some '\x0c'
  | 'n' => some '\n'
  | 'r' => some '\r'
  | 't' => some '\t'
  | _ => none

/-- The characters of a string up to its closing quote, and the text behind it; `pending` is a unit
that may open a pair. -/
def readChars (pending : Option Nat) : List Char → Option (List Char × List Char)
  | [] => none
  | '"' :: rest => some ((pending.map Text.charOfCode).toList, rest)
  | '\\' :: 'u' :: a :: b :: c :: d :: rest =>
    match unitOf? a b c d with
    | none => none
    | some unit =>
      match pending with
      | some high =>
        if isLowUnit unit then
          (readChars none rest).map fun r =>
            (Char.ofNat (0x10000 + (high - 0xd800) * 0x400 + (unit - 0xdc00)) :: r.1, r.2)
        else if isHighUnit unit then
          (readChars (some unit) rest).map fun r => (Text.charOfCode high :: r.1, r.2)
        else
          (readChars none rest).map fun r =>
            (Text.charOfCode high :: Text.charOfCode unit :: r.1, r.2)
      | none =>
        if isHighUnit unit then readChars (some unit) rest
        else (readChars none rest).map fun r => (Text.charOfCode unit :: r.1, r.2)
  | '\\' :: e :: rest =>
    match shortEscape? e with
    | none => none
    | some c =>
      (readChars none rest).map fun r => ((pending.map Text.charOfCode).toList ++ c :: r.1, r.2)
  | c :: rest =>
    if c.toNat < 0x20 ∨ c = '\\' then none
    else (readChars none rest).map fun r => ((pending.map Text.charOfCode).toList ++ c :: r.1, r.2)

def readString (cs : List Char) : Option (String × List Char) :=
  (readChars none cs).map fun r => (String.ofList r.1, r.2)

def readWhole : List Char → Option (List Char × List Char)
  | '0' :: rest => some (['0'], rest)
  | cs =>
    let ds := cs.takeWhile Text.isDigit
    if ds.isEmpty then none else some (ds, cs.dropWhile Text.isDigit)

def readFraction : List Char → Option (List Char) × List Char
  | '.' :: rest =>
    let ds := rest.takeWhile Text.isDigit
    if ds.isEmpty then (none, '.' :: rest) else (some ds, rest.dropWhile Text.isDigit)
  | cs => (none, cs)

def readPower (cs : List Char) : Option (Int × List Char) :=
  let (negative, body) := match cs with
    | '-' :: rest => (true, rest)
    | '+' :: rest => (false, rest)
    | rest => (false, rest)
  let ds := body.takeWhile Text.isDigit
  if ds.isEmpty then none
  else
    let n := Text.natOfDigits ds
    some (if negative then -(n : Int) else n, body.dropWhile Text.isDigit)

def readExponent : List Char → Option Int × List Char
  | c :: rest =>
    if c = 'e' ∨ c = 'E' then
      match readPower rest with
      | some (n, r) => (some n, r)
      | none => (none, c :: rest)
    else (none, c :: rest)
  | [] => (none, [])

/-- A number behind its sign; without fraction and exponent it is an integer. -/
def readNumber (negative : Bool) (cs : List Char) : Option (Number × List Char) :=
  match readWhole cs with
  | none => none
  | some (whole, rest) =>
    let (fraction, rest1) := readFraction rest
    let (power, rest2) := readExponent rest1
    match fraction, power with
    | none, none =>
      if Text.mostDigits < whole.length then none
      else
        let n := Text.natOfDigits whole
        some (.int (if negative then -(n : Int) else n), rest2)
    | _, _ =>
      let tail := fraction.getD []
      let digits := Text.natOfDigits (whole ++ tail)
      some (.float (Decimal.ofDecimal negative digits (power.getD 0 - tail.length)), rest2)

def skipWord (word : String) (cs : List Char) : Option (List Char) :=
  if word.toList.isPrefixOf cs then some (cs.drop word.length) else none

private def notANumber : Float := 0.0 / 0.0

private def infinity : Float := 1.0 / 0.0

mutual

def readValue : Nat → List Char → Option (Json × List Char)
  | 0, _ => none
  | fuel + 1, cs =>
    match cs with
    | [] => none
    | '"' :: rest => (readString rest).map fun r => (.str r.1, r.2)
    | '[' :: rest =>
      match skipGap rest with
      | ']' :: rest => some (.arr [], rest)
      | rest => (readItems fuel rest).map fun r => (.arr r.1, r.2)
    | '\x7b' :: rest =>
      match skipGap rest with
      | '\x7d' :: rest => some (.obj [], rest)
      | rest => (readMembers fuel rest).map fun r => (ofMembers r.1, r.2)
    | 'n' :: _ => (skipWord "null" cs).map fun r => (.null, r)
    | 't' :: _ => (skipWord "true" cs).map fun r => (.bool true, r)
    | 'f' :: _ => (skipWord "false" cs).map fun r => (.bool false, r)
    | 'N' :: _ => (skipWord "NaN" cs).map fun r => (.float notANumber, r)
    | 'I' :: _ => (skipWord "Infinity" cs).map fun r => (.float infinity, r)
    | '-' :: 'I' :: _ => (skipWord "-Infinity" cs).map fun r => (.float (-infinity), r)
    | '-' :: rest => (readNumber true rest).map fun r => (.num r.1, r.2)
    | _ => (readNumber false cs).map fun r => (.num r.1, r.2)

def readItems : Nat → List Char → Option (List Json × List Char)
  | 0, _ => none
  | fuel + 1, cs =>
    match readValue fuel cs with
    | none => none
    | some (v, rest) =>
      match skipGap rest with
      | ']' :: rest => some ([v], rest)
      | ',' :: rest => (readItems fuel (skipGap rest)).map fun r => (v :: r.1, r.2)
      | _ => none

/-- The members of an object as they are written, from the first key to the closing brace. -/
def readMembers : Nat → List Char → Option (List (String × Json) × List Char)
  | 0, _ => none
  | fuel + 1, cs =>
    match cs with
    | '"' :: rest =>
      match readString rest with
      | none => none
      | some (k, rest) =>
        match skipGap rest with
        | ':' :: rest =>
          match readValue fuel (skipGap rest) with
          | none => none
          | some (v, rest) =>
            match skipGap rest with
            | '\x7d' :: rest => some ([(k, v)], rest)
            | ',' :: rest => (readMembers fuel (skipGap rest)).map fun r => ((k, v) :: r.1, r.2)
            | _ => none
        | _ => none
    | _ => none

end

/-- The value that a whole text denotes. Each step of the reader but one in two takes a character,
so twice the length bounds their number. -/
def parse? (cs : List Char) : Option Json :=
  match readValue (2 * cs.length + 2) (skipGap cs) with
  | some (v, rest) => if (skipGap rest).isEmpty then some v else none
  | none => none

end Latency.Json

import Latency.Text.Digit
import Latency.Yaml.Cursor
/-!
# Kinds of nodes

What a tag asks for, and what a plain scalar without a tag is taken for: its text decides, by
patterns for truth values, numbers, times and a few signs.
-/

namespace Latency.Yaml

inductive Kind where
  | null
  | bool
  | int
  | float
  | str
  | octets
  | timestamp
  | seq
  | map
  | set
  | pairs
  | merge
  | content
  | unknown
deriving DecidableEq

namespace Kind

def standard : List (String × Kind) :=
  [("null", .null), ("bool", .bool), ("int", .int), ("float", .float), ("str", .str),
   ("binary", .octets), ("timestamp", .timestamp), ("seq", .seq), ("map", .map), ("set", .set),
   ("omap", .pairs), ("pairs", .pairs), ("merge", .merge), ("value", .content)]

def standardStem : String := "tag:yaml.org,2002:"

def ofTag (tag : String) : Kind :=
  let stem := standardStem.toList
  if stem.isPrefixOf tag.toList then
    (standard.lookup (String.ofList (tag.toList.drop stem.length))).getD .unknown
  else .unknown

/-! ## Patterns -/

abbrev Pattern := List Char → List (List Char)

def one (p : Char → Bool) : Pattern
  | [] => []
  | c :: rest => if p c then [rest] else []

def many (p : Char → Bool) : Pattern
  | [] => [[]]
  | c :: rest => (c :: rest) :: (if p c then many p rest else [])

def before (a b : Pattern) : Pattern :=
  fun s => (a s).flatMap b

def optional (a : Pattern) : Pattern :=
  fun s => a s ++ [s]

def either (a b : Pattern) : Pattern :=
  fun s => a s ++ b s

def inOrder : List Pattern → Pattern
  | [] => fun s => [s]
  | a :: rest => before a (inOrder rest)

def char (c : Char) : Pattern := one (· == c)

def isSign (c : Char) : Bool := c == '-' || c == '+'

def isGrouped (c : Char) : Bool := Text.isDigit c || c == '_'

def fits (a : Pattern) (s : List Char) : Bool :=
  (a s).any List.isEmpty

def sixties : Nat → Pattern
  | 0 => fun _ => []
  | n + 1 =>
    let tens := one fun c => Text.isDigit c && decide (c ≤ '5')
    before (inOrder [char ':', optional tens, one Text.isDigit]) (optional (sixties n))

def exponent : Pattern :=
  inOrder [one fun c => c == 'e' || c == 'E', one isSign, one Text.isDigit, many Text.isDigit]

def isInt (s : List Char) : Bool :=
  let unsigned : List Pattern := [
    inOrder [char '0', char 'b', one fun c => c == '0' || c == '1' || c == '_',
      many fun c => c == '0' || c == '1' || c == '_'],
    inOrder [char '0', one fun c => (Text.isDigit c && decide (c ≤ '7')) || c == '_',
      many fun c => (Text.isDigit c && decide (c ≤ '7')) || c == '_'],
    char '0',
    inOrder [one fun c => Text.isDigit c && c != '0', many isGrouped],
    inOrder [char '0', char 'x', one isHexGrouped, many isHexGrouped],
    inOrder [one fun c => Text.isDigit c && c != '0', many isGrouped, sixties s.length]]
  unsigned.any fun a => fits (before (optional (one isSign)) a) s
where
  isHexGrouped (c : Char) : Bool :=
    isGrouped c || (decide ('a' ≤ c) && decide (c ≤ 'f')) || (decide ('A' ≤ c) && decide (c ≤ 'F'))

def isFloat (s : List Char) : Bool :=
  let word (w : String) : Pattern := inOrder (w.toList.map char)
  let sign := optional (one isSign)
  let forms : List Pattern := [
    inOrder [sign, one Text.isDigit, many isGrouped, char '.', many isGrouped, optional exponent],
    inOrder [char '.', one Text.isDigit, many isGrouped, optional exponent],
    inOrder [sign, one Text.isDigit, many isGrouped, sixties s.length, char '.', many isGrouped],
    inOrder [sign, char '.', either (word "inf") (either (word "Inf") (word "INF"))],
    inOrder [char '.', either (word "nan") (either (word "NaN") (word "NAN"))]]
  forms.any fun a => fits a s

def oneOrTwo : Pattern := before (one Text.isDigit) (optional (one Text.isDigit))

def two : Pattern := before (one Text.isDigit) (one Text.isDigit)

def isTimestamp (s : List Char) : Bool :=
  let year := before two two
  let gap := many fun c => c == ' ' || c == '\t'
  let zone := before gap (either (char 'Z')
    (inOrder [one isSign, oneOrTwo, optional (before (char ':') two)]))
  let forms : List Pattern := [
    inOrder [year, char '-', two, char '-', two],
    inOrder [year, char '-', oneOrTwo, char '-', oneOrTwo,
      either (one fun c => c == 'T' || c == 't')
        (before (one fun c => c == ' ' || c == '\t') gap),
      oneOrTwo, char ':', two, char ':', two,
      optional (before (char '.') (many Text.isDigit)), optional zone]]
  forms.any fun a => fits a s

def truths : List (String × Bool) :=
  [("yes", true), ("no", false), ("true", true), ("false", false), ("on", true), ("off", false)]

def inThreeCases (w : String) : List String :=
  let capital :=
    match w.toList with
    | [] => []
    | c :: rest => c.toUpper :: rest
  [w, String.ofList capital, w.toUpper]

/-- A text without the line end behind it, if there is more of it. -/
def dropLineEnd (s : String) : String :=
  let cs := s.toList
  if cs.getLast? = some '\n' ∧ 1 < cs.length then String.ofList cs.dropLast else s

/-- What a scalar is, going by its text; one line end behind the text does not count. -/
def ofText (text : String) : Kind :=
  let s := dropLineEnd text
  let cs := s.toList
  if (truths.flatMap fun t => inThreeCases t.1).contains s then .bool
  else if isFloat cs then .float
  else if isInt cs then .int
  else if s = "<<" then .merge
  else if s = "~" ∨ s = "" ∨ (inThreeCases "null").contains s then .null
  else if isTimestamp cs then .timestamp
  else if s = "=" then .content
  else if s = "!" ∨ s = "&" ∨ s = "*" then .unknown
  else .str

end Kind

end Latency.Yaml

import Latency.Text.Digit
/-!
# Escape sequences of terminals

Texts may hold sequences that a terminal acts on and does not show: control sequences, and links, of
which only the text is shown.
-/

namespace Latency.Text

def escapeMark : Char := '\x1b'

/-- The text behind a control sequence that stands in front: `[`, parameters, and one character that
ends it. -/
def afterControl? : List Char → Option (List Char)
  | '\x1b' :: '[' :: rest =>
    let parameters (c : Char) : Bool := decide ('0' ≤ c) && decide (c ≤ '?')
    let marks (c : Char) : Bool := decide (' ' ≤ c) && decide (c ≤ '/')
    match (rest.dropWhile parameters).dropWhile marks with
    | c :: rest => if '@' ≤ c ∧ c ≤ '~' then some rest else none
    | [] => none
  | _ => none

def isWordChar (c : Char) : Bool := c.isAlphanum || c == '_'

/-- Whether a text is a list of names with values, each `name=value`, perhaps with a colon behind
it. What stands between two equals signs is a value and the next name. -/
def isAssignments (cs : List Char) : Bool :=
  match cs.splitOn '=' with
  | [] => true
  | [piece] => piece.isEmpty
  | name :: rest =>
    let word (p : List Char) : Bool := !p.isEmpty && p.all isWordChar
    let last := rest.getLast?.getD []
    let stripped := if last.getLast? = some ':' then last.dropLast else last
    word name && word stripped && rest.dropLast.all fun p =>
      match p.splitOn ':' with
      | [both] => word both && decide (2 ≤ both.length)
      | [value, next] => word value && word next
      | _ => false

def after? (piece : String) (cs : List Char) : Option (List Char) :=
  if piece.toList.isPrefixOf cs then some (cs.drop piece.length) else none

def toEscape? (cs : List Char) : Option (List Char × List Char) :=
  let shown := cs.takeWhile (· != escapeMark)
  if shown.isEmpty then none else some (shown, cs.dropWhile (· != escapeMark))

def link? (cs : List Char) : Option (List Char × List Char) := do
  let rest ← after? "\x1b]8;" cs
  let options := rest.takeWhile (· != ';')
  let rest ← after? ";" (rest.dropWhile (· != ';'))
  if isAssignments options then
    let (_, rest) ← toEscape? rest
    let (shown, rest) ← (after? "\x1b\\" rest).bind toEscape?
    let rest ← after? "\x1b]8;;\x1b\\" rest
    return (shown, rest)
  else none

def escape? (cs : List Char) : Option (List Char × List Char) :=
  match afterControl? cs with
  | some rest => some ([], rest)
  | none => link? cs

def hasEscape : List Char → Bool
  | [] => false
  | c :: rest => (escape? (c :: rest)).isSome || hasEscape rest

/-- What a terminal shows of a text, in steps of one character or one sequence. -/
def shownIn : Nat → List Char → List Char
  | _, [] => []
  | 0, cs => cs
  | n + 1, c :: rest =>
    match escape? (c :: rest) with
    | some (shown, rest) => shown ++ shownIn n rest
    | none => c :: shownIn n rest

def shownWidth (cs : List Char) : Nat :=
  (shownIn cs.length cs).length

end Latency.Text

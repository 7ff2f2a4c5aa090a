import Latency.Text.Digit
import Latency.Text.Utf8
import Latency.Yaml.Cursor
import Latency.Yaml.Defect
/-!
# Scalars

The texts of scalars as they are written: plain, in single or double quotes, and as blocks. Lines
are folded as the format says: one line end is a blank, further ones stay.
-/

namespace Latency.Yaml

abbrev Scanned := List Char × Cursor

/-! ## Quoted scalars -/

def escapes : List (Char × Char) :=
  [('0', '\x00'), ('a', '\x07'), ('b', '\x08'), ('t', '\t'), ('\t', '\t'), ('n', '\n'),
   ('v', '\x0b'), ('f', '\x0c'), ('r', '\r'), ('e', '\x1b'), (' ', ' '), ('"', '"'),
   ('\\', '\\'), ('/', '/'),
   ('N', '\x85'), ('_', '\xa0'), ('L', '\u2028'), ('P', '\u2029')]

def escapeWidths : List (Char × Nat) :=
  [('x', 2), ('u', 4), ('U', 8)]

def hexNumber? (ds : List Char) : Option Nat :=
  ds.foldlM (fun n c => (Text.hexValue? c).map (16 * n + ·)) 0

/-- The blank lines inside of a quoted scalar; a marker of a document may not stand there. -/
def quotedBreaks : Nat → Cursor → Option Scanned
  | 0, _ => none
  | fuel + 1, c =>
    if c.atSeparator then none
    else
      let c := c.dropWhile fun x => x == ' ' || x == '\t'
      if isBreak c.here then
        let (b, c) := c.lineBreak
        (quotedBreaks fuel c).map fun r => (b ++ r.1, r.2)
      else some ([], c)

/-- The character of a code point. What four octets with a sign cannot hold is out of range. -/
def escapedChar (n : Nat) : Except Defect Char :=
  if n < 0x110000 then .ok (Text.charOfCode n)
  else if n < 0x80000000 then .error .malformed
  else .error .outOfRange

def readEscape (c : Cursor) : Except Defect Scanned :=
  let x := c.here
  match escapes.lookup x with
  | some y => .ok ([y], c.step)
  | none =>
    match escapeWidths.lookup x with
    | some width => do
      let ds := c.step.rest.take width
      let n ← orMalformed (hexNumber? ds)
      if ds.length = width then
        let y ← escapedChar n
        return ([y], c.step.forward width)
      else throw .malformed
    | none =>
      if isBreak x then orMalformed (quotedBreaks (c.rest.length + 1) c.lineBreak.2)
      else .error .malformed

def quotedWord (double : Bool) : Nat → Cursor → Except Defect Scanned
  | 0, _ => .error .malformed
  | fuel + 1, c => do
    let (word, c) := c.takeWhile fun x => !(x == '\'' || x == '"' || x == '\\' || isGapOrEnd x)
    let x := c.here
    let next : Option (Except Defect Scanned) :=
      if !double && x == '\'' && c.peek 1 == '\'' then some (.ok (['\''], c.forward 2))
      else if (double && x == '\'') || (!double && (x == '"' || x == '\\')) then
        some (.ok ([x], c.step))
      else if double && x == '\\' then some (readEscape c.step)
      else none
    match next with
    | none => return (word, c)
    | some read =>
      let (piece, c) ← read
      let (rest, c) ← quotedWord double fuel c
      return (word ++ piece ++ rest, c)

def quotedGap (c : Cursor) : Option Scanned :=
  let (blanks, c) := c.takeWhile fun x => x == ' ' || x == '\t'
  if c.here == endMark then none
  else if isBreak c.here then
    let (b, c) := c.lineBreak
    (quotedBreaks (c.rest.length + 1) c).map fun r =>
      ((if b != ['\n'] then b else if r.1.isEmpty then [' '] else []) ++ r.1, r.2)
  else some (blanks, c)

def quotedRest (double : Bool) : Nat → Cursor → Except Defect Scanned
  | 0, _ => .error .malformed
  | fuel + 1, c => do
    let (word, c) ← quotedWord double (c.rest.length + 1) c
    if c.here == (if double then '"' else '\'') then return (word, c.step)
    let (gap, c) ← orMalformed (quotedGap c)
    let (rest, c) ← quotedRest double fuel c
    return (word ++ gap ++ rest, c)

def readQuoted (double : Bool) (c : Cursor) : Except Defect Scanned :=
  quotedRest double (c.rest.length + 1) c.step

/-! ## Block scalars -/

inductive Chomping where
  | strip
  | clip
  | keep
deriving DecidableEq

def chomping? : Char → Option Chomping
  | '+' => some .keep
  | '-' => some .strip
  | _ => none

/-- The indentation that a digit asks for; zero is not allowed. -/
def increment? (x : Char) : Option (Option Nat) :=
  if Text.isDigit x then if x == '0' then none else some (some (x.toNat - 48)) else some none

/-- The header of a block scalar: sign and digit in either order. -/
def blockHeader (c : Cursor) : Option (Chomping × Option Nat × Cursor) := do
  let result ←
    match chomping? c.here with
    | some chomping =>
      match ← increment? c.step.here with
      | some n => pure (chomping, some n, c.forward 2)
      | none => pure (chomping, none, c.step)
    | none =>
      match ← increment? c.here with
      | none => pure (Chomping.clip, none, c)
      | some n =>
        match chomping? c.step.here with
        | some chomping => pure (chomping, some n, c.forward 2)
        | none => pure (Chomping.clip, some n, c.step)
  if isBlankOrEnd result.2.2.here then return result else none

def ignoredLine (c : Cursor) : Option Cursor :=
  let c := c.skipBlanks.skipComment
  if isLineEnd c.here then some c.lineBreak.2 else none

/-- The blank lines at the beginning of a block scalar, and the deepest column they reach. -/
def blockIndentation : Nat → List Char → Nat → Cursor → List Char × Nat × Cursor
  | 0, breaks, deepest, c => (breaks, deepest, c)
  | fuel + 1, breaks, deepest, c =>
    if c.here == ' ' then blockIndentation fuel breaks (max deepest c.step.column) c.step
    else if isBreak c.here then
      let (b, next) := c.lineBreak
      blockIndentation fuel (breaks ++ b) deepest next
    else (breaks, deepest, c)

def skipIndent (indent : Nat) (c : Cursor) : Cursor :=
  c.forward ((c.rest.take (indent - c.column)).takeWhile (· == ' ')).length

def blockBreaks (indent : Nat) : Nat → Cursor → Scanned
  | 0, c => ([], c)
  | fuel + 1, c =>
    let c := skipIndent indent c
    if isBreak c.here then
      let (b, c) := c.lineBreak
      let (rest, c) := blockBreaks indent fuel c
      (b ++ rest, c)
    else ([], c)

def blockLines (folded : Bool) (indent : Nat) :
    Nat → List Char → List Char → List Char → Cursor → List Char × List Char × List Char × Cursor
  | 0, text, lineEnd, breaks, c => (text, lineEnd, breaks, c)
  | fuel + 1, text, lineEnd, breaks, c =>
    if c.column = indent ∧ c.here ≠ endMark then
      let indented := c.here == ' ' || c.here == '\t'
      let (line, c) := c.takeWhile fun x => !isLineEnd x
      let (lineEnd, c) := c.lineBreak
      let (after, c) := blockBreaks indent (c.rest.length + 1) c
      let text := text ++ breaks ++ line
      if c.column = indent ∧ c.here ≠ endMark then
        let join :=
          if folded && lineEnd == ['\n'] && !indented && !(c.here == ' ' || c.here == '\t') then
            if after.isEmpty then [' '] else []
          else lineEnd
        blockLines folded indent fuel (text ++ join) lineEnd after c
      else (text, lineEnd, after, c)
    else (text, lineEnd, breaks, c)

def readBlock (folded : Bool) (parent : Int) (c : Cursor) : Option Scanned := do
  let (chomping, increment, c) ← blockHeader c.step
  let c ← ignoredLine c
  let least := (parent + 1).toNat.max 1
  let fuel := c.rest.length + 1
  let (indent, breaks, c) :=
    match increment with
    | none =>
      let (breaks, deepest, c) := blockIndentation fuel [] 0 c
      (max least deepest, breaks, c)
    | some n =>
      let indent := least + n - 1
      let (breaks, c) := blockBreaks indent fuel c
      (indent, breaks, c)
  let (text, lineEnd, after, c) := blockLines folded indent fuel [] [] breaks c
  let text := if chomping = .strip then text else text ++ lineEnd
  return (if chomping = .keep then text ++ after else text, c)

/-! ## Plain scalars -/

def isFlowMark (c : Char) : Bool :=
  c == ',' || c == '[' || c == ']' || c == '{' || c == '}'

def plainWord (flow : Bool) : List Char → List Char
  | [] => []
  | c :: rest =>
    let next := rest.headD endMark
    if isGapOrEnd c || (c == ':' && (isGapOrEnd next || (flow && isFlowMark next))) ||
        (flow && (isFlowMark c || c == '?')) then []
    else c :: plainWord flow rest

/-- What follows a word of a plain scalar: `none` if a marker of a document ends it, else the blanks
or folded line ends. The flag tells whether a line has ended. -/
def plainBreaks : Nat → Cursor → Option Scanned
  | 0, c => some ([], c)
  | fuel + 1, c =>
    if c.here == ' ' then plainBreaks fuel c.step
    else if isBreak c.here then
      let (b, next) := c.lineBreak
      if next.atSeparator then none
      else (plainBreaks fuel next).map fun r => (b ++ r.1, r.2)
    else some ([], c)

def toSeparator : Nat → Cursor → Cursor
  | 0, c => c
  | fuel + 1, c =>
    if c.atSeparator && c.column == 0 then c
    else if c.here == ' ' then toSeparator fuel c.step
    else if isBreak c.here then toSeparator fuel c.lineBreak.2
    else c

/-- The gap behind a word of a plain scalar: its text (empty if the scalar ends here), whether a
line has ended in it, and the place behind it. -/
def plainGap (c : Cursor) : List Char × Bool × Cursor :=
  let (blanks, c) := c.takeWhile (· == ' ')
  if isBreak c.here then
    let (b, next) := c.lineBreak
    let fuel := next.rest.length + 1
    if next.atSeparator then ([], true, next)
    else
      match plainBreaks fuel next with
      | none => ([], true, toSeparator fuel next)
      | some (breaks, c) =>
        ((if b != ['\n'] then b else if breaks.isEmpty then [' '] else []) ++ breaks, true, c)
  else (blanks, false, c)

/-- A plain scalar: its text, whether a line ended behind its last word, and the place behind it. -/
def plainRest (flow : Bool) (indent : Int) :
    Nat → List Char → Bool → Cursor → List Char × Bool × Cursor
  | 0, _, ended, c => ([], ended, c)
  | fuel + 1, gap, ended, c =>
    if c.here == '#' then ([], ended, c)
    else
      let word := plainWord flow c.rest
      if word.isEmpty then ([], ended, c)
      else
        let (after, ended, next) := plainGap (c.forward word.length)
        let outside := !flow && decide ((next.column : Int) < indent)
        if after.isEmpty || next.here == '#' || outside then
          (gap ++ word, ended, next)
        else
          let (rest, ended, last) := plainRest flow indent fuel after ended next
          (gap ++ word ++ rest, ended, last)

def readPlain (flow : Bool) (parent : Int) (c : Cursor) : List Char × Bool × Cursor :=
  plainRest flow (parent + 1) (c.rest.length + 1) [] false c

end Latency.Yaml

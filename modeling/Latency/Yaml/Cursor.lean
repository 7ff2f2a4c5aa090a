/-!
# A place in a document

The text that is still to be read, with the line and column it begins at. Behind the end of the text
every look finds a NUL, which no document contains.
-/

namespace Latency.Yaml

def endMark : Char := '\x00'

def isBreak (c : Char) : Bool :=
  c == '\r' || c == '\n' || c == '\x85' || c == '\u2028' || c == '\u2029'

def isLineEnd (c : Char) : Bool :=
  c == endMark || isBreak c

def isBlankOrEnd (c : Char) : Bool :=
  c == ' ' || isLineEnd c

def isGapOrEnd (c : Char) : Bool :=
  c == '\t' || isBlankOrEnd c

def isNameChar (c : Char) : Bool :=
  c.isAlphanum || c == '-' || c == '_'

structure Cursor where
  rest : List Char
  index : Nat := 0
  line : Nat := 0
  column : Nat := 0

namespace Cursor

def peek (c : Cursor) (ahead : Nat) : Char :=
  (c.rest[ahead]?).getD endMark

def here (c : Cursor) : Char :=
  c.rest.headD endMark

def step (c : Cursor) : Cursor :=
  match c.rest with
  | [] => c
  | x :: rest =>
    let newLine := (isBreak x && x != '\r') || (x == '\r' && rest.head? != some '\n')
    { rest := rest
      index := c.index + 1
      line := if newLine then c.line + 1 else c.line
      column := if newLine then 0 else if x == '\uFEFF' then c.column else c.column + 1 }

def forward : Nat → Cursor → Cursor
  | 0, c => c
  | n + 1, c => forward n c.step

def takeWhile (p : Char → Bool) (c : Cursor) : List Char × Cursor :=
  let taken := c.rest.takeWhile p
  (taken, c.forward taken.length)

def dropWhile (p : Char → Bool) (c : Cursor) : Cursor :=
  (c.takeWhile p).2

def skipBlanks (c : Cursor) : Cursor :=
  c.dropWhile (· == ' ')

def skipComment (c : Cursor) : Cursor :=
  if c.here == '#' then c.dropWhile fun x => !isLineEnd x else c

/-- The end of a line, if one is here: what it counts as in a text, and the place behind it. -/
def lineBreak (c : Cursor) : List Char × Cursor :=
  let x := c.here
  if x == '\r' && c.peek 1 == '\n' then (['\n'], c.forward 2)
  else if x == '\r' || x == '\n' || x == '\x85' then (['\n'], c.step)
  else if x == '\u2028' || x == '\u2029' then ([x], c.step)
  else ([], c)

/-- Whether the marker of a document's start or end stands here, apart from its column. -/
def atMarker (mark : Char) (c : Cursor) : Bool :=
  c.rest.take 3 == [mark, mark, mark] && isGapOrEnd (c.peek 3)

def atSeparator (c : Cursor) : Bool :=
  c.atMarker '-' || c.atMarker '.'

end Cursor

end Latency.Yaml

import Latency.Yaml.Scalar
/-!
# Tokens

A document as a list of tokens. Indentation opens and closes block collections. What stands before a
colon is known to be a key only when the colon comes, so the places where a key may begin are kept
until then, one for each depth of flow collections.
-/

namespace Latency.Yaml

inductive Directive where
  | version (major : Nat)
  | tag (handle stem : String)
  | other

inductive Token where
  | directive (d : Directive)
  | documentStart
  | documentEnd
  | blockSequence
  | blockMapping
  | blockEnd
  | flowSequence
  | flowSequenceEnd
  | flowMapping
  | flowMappingEnd
  | entry
  | comma
  | key
  | value
  | alias (name : String)
  | anchor (name : String)
  /-- A tag; without a handle the suffix is all of it. -/
  | tag (handle : Option String) (suffix : String)
  /-- A scalar; plain ones are without quotes or a block sign. -/
  | scalar (plain : Bool) (text : String)
  /-- A scalar with an escape that is out of range; nothing behind it is read. -/
  | outOfRange

def Token.isLast : Token → Bool
  | .outOfRange => true
  | _ => false

/-- A place where a key may have begun; a required one has to be a key. -/
structure PossibleKey where
  token : Nat
  required : Bool
  index : Nat
  line : Nat
  column : Nat

structure Lexer where
  place : Cursor
  tokens : Array Token := #[]
  depth : Nat := 0
  indent : Int := -1
  indents : List Int := []
  /-- Whether a key may begin here without a sign. -/
  keyAllowed : Bool := true
  keys : List (Nat × PossibleKey) := []

namespace Lexer

def push (t : Token) (c : Cursor) (s : Lexer) : Lexer :=
  { s with tokens := s.tokens.push t, place := c }

def dropKey (s : Lexer) : Option Lexer :=
  match s.keys.lookup s.depth with
  | none => some s
  | some key =>
    if key.required then none else some { s with keys := s.keys.filter fun k => k.1 != s.depth }

/-- How far from its beginning the colon of a key may be. -/
def keyReach : Nat := 1024

def dropStaleKeys (s : Lexer) : Option Lexer :=
  let stale (k : PossibleKey) : Bool :=
    k.line != s.place.line || decide (keyReach < s.place.index - k.index)
  if s.keys.any fun k => stale k.2 && k.2.required then none
  else some { s with keys := s.keys.filter fun k => !stale k.2 }

def saveKey (s : Lexer) : Option Lexer :=
  if s.keyAllowed then do
    let required := s.depth == 0 && s.indent == s.place.column
    let s ← s.dropKey
    let key : PossibleKey :=
      ⟨s.tokens.size, required, s.place.index, s.place.line, s.place.column⟩
    return { s with keys := (s.depth, key) :: s.keys }
  else some s

def unwindTo (column : Int) : List Int → Lexer → Lexer
  | [], s => s
  | outer :: rest, s =>
    if column < s.indent then
      unwindTo column rest
        { s with indent := outer, indents := rest, tokens := s.tokens.push .blockEnd }
    else s

/-- Closes the block collections that do not reach to a column; none within flow collections. -/
def unwind (column : Int) (s : Lexer) : Lexer :=
  if s.depth = 0 then unwindTo column s.indents s else s

/-- Opens a block collection at a column, if it is deeper than the last one; its token comes before
the token of the given number. -/
def openBlock (t : Token) (column : Nat) (before : Nat) (s : Lexer) : Lexer :=
  if s.indent < column then
    { s with
      indents := s.indent :: s.indents, indent := column
      tokens := s.tokens.insertIdxIfInBounds before t }
  else s

/-- The place of the next token; a line end outside of flow collections allows a key. -/
def toNextToken : Nat → Lexer → Lexer
  | 0, s => s
  | fuel + 1, s =>
    let c := s.place.skipBlanks.skipComment
    let (b, next) := c.lineBreak
    if b.isEmpty then { s with place := c }
    else toNextToken fuel { s with place := next, keyAllowed := s.keyAllowed || s.depth == 0 }

/-! ## Tokens of several characters -/

def readName (c : Cursor) : Option (String × Cursor) :=
  let (name, next) := c.takeWhile isNameChar
  if name.isEmpty then none else some (String.ofList name, next)

def endsAnchor (c : Char) : Bool :=
  isGapOrEnd c || c == '}' || "?:,]%@`".toList.contains c

def readAnchor (c : Cursor) : Option (String × Cursor) := do
  let (name, c) ← readName c
  if endsAnchor c.here then return (name, c) else none

def isTagChar (c : Char) : Bool :=
  c.isAlphanum || "-;/?:@&=+$,_.!~*'()[]".toList.contains c

def escapedOctets : Nat → Cursor → Option (List UInt8 × Cursor)
  | 0, _ => none
  | fuel + 1, c =>
    if c.here == '%' then do
      let high ← Text.hexValue? (c.peek 1)
      let low ← Text.hexValue? (c.peek 2)
      let (rest, c) ← escapedOctets fuel (c.forward 3)
      return (UInt8.ofNat (16 * high + low) :: rest, c)
    else some ([], c)

def tagChars : Nat → Cursor → Option Scanned
  | 0, _ => none
  | fuel + 1, c => do
    let (plain, c) := c.takeWhile isTagChar
    if c.here == '%' then
      let (octets, c) ← escapedOctets (c.rest.length + 1) c
      let escaped ← Text.decodeUtf8? octets
      let (rest, c) ← tagChars fuel c
      return (plain ++ escaped ++ rest, c)
    else return (plain, c)

def readTagText (c : Cursor) : Option (String × Cursor) := do
  let (text, next) ← tagChars (c.rest.length + 1) c
  if next.index = c.index then none else return (String.ofList text, next)

def readHandle (c : Cursor) : Option (String × Cursor) :=
  if c.here != '!' then none
  else if c.peek 1 == ' ' then some ("!", c.step)
  else
    let (name, next) := c.step.takeWhile isNameChar
    if next.here == '!' then some (String.ofList ('!' :: name ++ ['!']), next.step) else none

def readTag (c : Cursor) : Option (Token × Cursor) := do
  let (t, next) ←
    if c.peek 1 == '<' then do
      let (text, c) ← readTagText (c.forward 2)
      if c.here == '>' then pure (Token.tag none text, c.step) else none
    else if isGapOrEnd (c.peek 1) then pure (Token.tag none "!", c.step)
    else do
      let word := c.step.rest.takeWhile fun x => !isBlankOrEnd x
      let (handle, c) ← if word.contains '!' then readHandle c else pure ("!", c.step)
      let (text, c) ← readTagText c
      pure (Token.tag (some handle) text, c)
  if isBlankOrEnd next.here then return (t, next) else none

def readVersionNumber (c : Cursor) : Option (Nat × Cursor) :=
  let (ds, next) := c.takeWhile Text.isDigit
  if ds.isEmpty ∨ Text.mostDigits < ds.length then none else some (Text.natOfDigits ds, next)

def readVersion (c : Cursor) : Option (Directive × Cursor) := do
  let (major, c) ← readVersionNumber c
  if c.here != '.' then none
  else
    let (_, c) ← readVersionNumber c.step
    if isBlankOrEnd c.here then return (.version major, c) else none

def readTagDefinition (c : Cursor) : Option (Directive × Cursor) := do
  let (handle, c) ← readHandle c
  if c.here != ' ' then none
  else
    let (stem, c) ← readTagText c.skipBlanks
    if isBlankOrEnd c.here then return (.tag handle stem, c) else none

def readDirective (c : Cursor) : Option (Directive × Cursor) := do
  let (name, c) ← readName c
  if !isBlankOrEnd c.here then none
  else
    let (d, c) ←
      if name = "YAML" then readVersion c.skipBlanks
      else if name = "TAG" then readTagDefinition c.skipBlanks
      else pure (.other, c.dropWhile fun x => !isLineEnd x)
    let c ← ignoredLine c
    return (d, c)

/-! ## One token further -/

def atTop (s : Lexer) : Option Lexer := do
  let s ← (s.unwind (-1)).dropKey
  return { s with keyAllowed := false }

def openFlow (t : Token) (s : Lexer) : Option Lexer := do
  let s ← s.saveKey
  return { s.push t s.place.step with depth := s.depth + 1, keyAllowed := true }

def closeFlow (t : Token) (s : Lexer) : Option Lexer := do
  let s ← s.dropKey
  match s.depth with
  | 0 => none
  | n + 1 => return { s.push t s.place.step with depth := n, keyAllowed := false }

def comma (s : Lexer) : Option Lexer := do
  let s ← { s with keyAllowed := true }.dropKey
  return s.push .comma s.place.step

def openHere (t : Token) (s : Lexer) : Option Lexer :=
  if s.depth != 0 then some s
  else if s.keyAllowed then some (s.openBlock t s.place.column s.tokens.size)
  else none

def blockEntry (s : Lexer) : Option Lexer := do
  let s ← s.openHere .blockSequence
  let s ← { s with keyAllowed := true }.dropKey
  return s.push .entry s.place.step

def explicitKey (s : Lexer) : Option Lexer := do
  let s ← s.openHere .blockMapping
  let s ← { s with keyAllowed := s.depth == 0 }.dropKey
  return s.push .key s.place.step

/-- The sign of a value. If a key may have begun at this depth, it did. -/
def valueSign (s : Lexer) : Option Lexer := do
  match s.keys.lookup s.depth with
  | some key =>
    let s := { s with
      keys := s.keys.filter fun k => k.1 != s.depth
      tokens := s.tokens.insertIdxIfInBounds key.token .key
      keyAllowed := false }
    let s := if s.depth = 0 then s.openBlock .blockMapping key.column key.token else s
    return s.push .value s.place.step
  | none =>
    let s ← s.openHere .blockMapping
    let s ← { s with keyAllowed := s.depth == 0 }.dropKey
    return s.push .value s.place.step

def keyPart (read : Cursor → Option (Token × Cursor)) (s : Lexer) : Option Lexer := do
  let s ← s.saveKey
  let (t, c) ← read s.place
  return { s.push t c with keyAllowed := false }

def quotedToken (double : Bool) (c : Cursor) : Option (Token × Cursor) :=
  match readQuoted double c with
  | .ok (text, next) => some (.scalar false (String.ofList text), next)
  | .error .outOfRange => some (.outOfRange, c)
  | .error _ => none

def blockScalar (folded : Bool) (s : Lexer) : Option Lexer := do
  let s ← { s with keyAllowed := true }.dropKey
  let (text, c) ← readBlock folded s.indent s.place
  return s.push (.scalar false (String.ofList text)) c

def plainScalar (s : Lexer) : Option Lexer := do
  let s ← s.saveKey
  let (text, ended, c) := readPlain (s.depth != 0) s.indent s.place
  return { s.push (.scalar true (String.ofList text)) c with keyAllowed := ended }

def beginsPlain (flow : Bool) (x next : Char) : Bool :=
  !(isGapOrEnd x || isFlowMark x || "-?:#&*!|>'\"%@`".toList.contains x) ||
    (!isGapOrEnd next && (x == '-' || (!flow && (x == '?' || x == ':'))))

/-- Reads one token, or ends; the flag tells whether there may be more. -/
def next (s : Lexer) : Option (Bool × Lexer) := do
  let s ← (toNextToken (s.place.rest.length + 1) s).dropStaleKeys
  let s := s.unwind s.place.column
  let c := s.place
  let x := c.here
  let flow := s.depth != 0
  let more (r : Option Lexer) : Option (Bool × Lexer) := r.map fun s => (true, s)
  if x == endMark then
    let s ← s.atTop
    return (false, s)
  else if x == '%' && c.column == 0 then
    more do
      let s ← s.atTop
      let (d, c) ← readDirective c.step
      return s.push (.directive d) c
  else if c.column == 0 && c.atMarker '-' then
    more (s.atTop.map fun s => s.push .documentStart (c.forward 3))
  else if c.column == 0 && c.atMarker '.' then
    more (s.atTop.map fun s => s.push .documentEnd (c.forward 3))
  else if x == '[' then more (s.openFlow .flowSequence)
  else if x == '{' then more (s.openFlow .flowMapping)
  else if x == ']' then more (s.closeFlow .flowSequenceEnd)
  else if x == '}' then more (s.closeFlow .flowMappingEnd)
  else if x == ',' then more s.comma
  else if x == '-' && isGapOrEnd (c.peek 1) then more s.blockEntry
  else if x == '?' && (flow || isGapOrEnd (c.peek 1)) then more s.explicitKey
  else if x == ':' && (flow || isGapOrEnd (c.peek 1)) then more s.valueSign
  else if x == '*' then
    more (s.keyPart fun c => (readAnchor c.step).map fun r => (.alias r.1, r.2))
  else if x == '&' then
    more (s.keyPart fun c => (readAnchor c.step).map fun r => (.anchor r.1, r.2))
  else if x == '!' then more (s.keyPart readTag)
  else if x == '|' && !flow then more (s.blockScalar false)
  else if x == '>' && !flow then more (s.blockScalar true)
  else if x == '\'' then
    more (s.keyPart (quotedToken false))
  else if x == '"' then
    more (s.keyPart (quotedToken true))
  else if beginsPlain flow x (c.peek 1) then more s.plainScalar
  else none

/-- The tokens that are final: no key may still turn out to begin before one of them. -/
def settled (s : Lexer) : Array Token :=
  match ((s.dropStaleKeys.getD s).keys.map fun k => k.2.token).min? with
  | none => s.tokens
  | some first => s.tokens.take first

/-- Reads tokens to the end. A token behind which nothing is read comes right behind the
final ones. -/
def run : Nat → Lexer → Option (Array Token)
  | 0, _ => none
  | fuel + 1, s =>
    match s.next with
    | none => none
    | some (more, next) =>
      match next.tokens.back?.filter Token.isLast with
      | some last => some (s.settled.push last)
      | none => if more then run fuel next else some next.tokens

end Lexer

def isAllowed (c : Char) : Bool :=
  let n := c.toNat
  n == 0x9 || n == 0xa || n == 0xd || (decide (0x20 ≤ n) && decide (n ≤ 0x7e)) || n == 0x85 ||
    (decide (0xa0 ≤ n) && decide (n ≤ 0xfffd)) || decide (0x10000 ≤ n)

/-- The tokens of a text; a byte order mark at its beginning is left out. -/
def tokens? (text : List Char) : Option (List Token) :=
  if text.all isAllowed then
    let start : Cursor := { rest := text }
    let start := if text.head? = some '\uFEFF' then start.step else start
    (Lexer.run (text.length + 1) { place := start }).map (·.toList)
  else none

end Latency.Yaml

import Latency.Text.Utf8
/-!
# Paths

Slash-separated paths in a normal form: no empty and no `.` components. `..` is kept until a path is
made absolute. Two leading slashes are kept, more are one.
-/

namespace Latency

/-- A path; the anchor is empty for a relative one. -/
structure Path where
  anchor : String := ""
  parts : List String := []
deriving Repr, DecidableEq

namespace Path

def pieces (s : String) : List String :=
  (s.toList.splitOn '/').map String.ofList

def ofString (s : String) : Path :=
  let anchor :=
    match s.toList with
    | '/' :: '/' :: '/' :: _ => "/"
    | '/' :: '/' :: _ => "//"
    | '/' :: _ => "/"
    | _ => ""
  ⟨anchor, (pieces s).filter fun p => p != "" && p != "."⟩

/-- The text of a path; the empty one is a dot. -/
def text (p : Path) : String :=
  if p.anchor = "" ∧ p.parts = [] then "." else p.anchor ++ "/".intercalate p.parts

def isAbsolute (p : Path) : Bool :=
  p.anchor != ""

def join (p q : Path) : Path :=
  if q.isAbsolute then q else ⟨p.anchor, p.parts ++ q.parts⟩

def child (p : Path) (name : String) : Path :=
  p.join (ofString name)

def name (p : Path) : String :=
  p.parts.getLast?.getD ""

def parent (p : Path) : Path :=
  ⟨p.anchor, p.parts.dropLast⟩

/-- Whether the name ends in this extension; a name that starts with its only dot has none. -/
def hasSuffix (extension : String) (p : Path) : Bool :=
  let cs := p.name.toList
  let after := cs.reverse.takeWhile (· != '.')
  let stem := cs.length - after.length - 1
  decide (after.length < cs.length) && decide (0 < stem) && !after.isEmpty &&
    '.' :: after.reverse == extension.toList

/-- Components with each `..` taken off together with the one before it. -/
def collapse (seen : List String) : List String → List String
  | [] => seen.reverse
  | ".." :: rest => collapse seen.tail rest
  | part :: rest => collapse (part :: seen) rest

def resolve (base p : Path) : Path :=
  ⟨"/", collapse [] (base.join p).parts⟩

def isUnreserved (b : UInt8) : Bool :=
  (48 ≤ b && b ≤ 57) || (65 ≤ b && b ≤ 90) || (97 ≤ b && b ≤ 122) ||
    b == 95 || b == 46 || b == 45 || b == 126 || b == 47

def percent (b : UInt8) : List Char :=
  if isUnreserved b then [Char.ofNat b.toNat]
  else
    let upper (n : Nat) : Char := (Nat.digitChar n).toUpper
    ['%', upper (b.toNat / 16), upper (b.toNat % 16)]

/-- The `file:` URI of an absolute path. -/
def uri (p : Path) : String :=
  "file://" ++ String.ofList ((Text.encodeUtf8 p.text.toList).flatMap percent)

end Path

end Latency

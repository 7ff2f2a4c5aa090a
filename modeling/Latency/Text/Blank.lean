/-!
# Blank characters and lines

White space and line breaks as Unicode has them, and the functions that cut a text at them.
-/

namespace Latency.Text

/-- White space: the Unicode blanks, and the four separators U+001C to U+001F. -/
def isBlank (c : Char) : Bool :=
  let n := c.toNat
  (decide (0x9 ≤ n) && decide (n ≤ 0xd)) || (decide (0x1c ≤ n) && decide (n ≤ 0x20)) ||
  n == 0x85 || n == 0xa0 || n == 0x1680 || (decide (0x2000 ≤ n) && decide (n ≤ 0x200a)) ||
  n == 0x2028 || n == 0x2029 || n == 0x202f || n == 0x205f || n == 0x3000

/-- White space that may stand around a number, which the separators U+001C to U+001F may not. -/
def isPadding (c : Char) : Bool :=
  isBlank c && !(decide (0x1c ≤ c.toNat) && decide (c.toNat ≤ 0x1f))

def isLineBreak (c : Char) : Bool :=
  let n := c.toNat
  (decide (0xa ≤ n) && decide (n ≤ 0xd)) || (decide (0x1c ≤ n) && decide (n ≤ 0x1e)) ||
  n == 0x85 || n == 0x2028 || n == 0x2029

def trimBy {α : Type} (p : α → Bool) (xs : List α) : List α :=
  ((xs.dropWhile p).reverse.dropWhile p).reverse

def trim (s : String) : String :=
  String.ofList (trimBy isBlank s.toList)

/-- The lines of a text, without their ends. A carriage return and the line feed after it are one
end, and an end at the very end of the text opens no further line. -/
def linesFrom (line : List Char) : List Char → List (List Char)
  | [] => if line.isEmpty then [] else [line.reverse]
  | '\r' :: '\n' :: rest => line.reverse :: linesFrom [] rest
  | c :: rest =>
    if isLineBreak c then line.reverse :: linesFrom [] rest else linesFrom (c :: line) rest

def splitLines (s : String) : List String :=
  (linesFrom [] s.toList).map String.ofList

def unifyNewlines : List Char → List Char
  | [] => []
  | '\r' :: '\n' :: rest => '\n' :: unifyNewlines rest
  | '\r' :: rest => '\n' :: unifyNewlines rest
  | c :: rest => c :: unifyNewlines rest

def holdsNul (s : String) : Bool :=
  s.toList.contains '\x00'

def padRight (width : Nat) (s : String) : String :=
  s ++ String.ofList (List.replicate (width - s.length) ' ')

end Latency.Text

import Latency.Json.Basic
import Latency.Text.Quoted
/-!
# JSON text

Values written on one line or indented. A style fixes the separators and whether characters outside
ASCII are escaped.
-/

namespace Latency.Json

structure Style where
  itemGap : List Char
  keyGap : List Char
  ascii : Bool

/-- No blanks, ASCII only: the form on the wire. -/
def Style.compact : Style := ⟨[','], [':'], true⟩

/-- No blanks, characters as they are: the form that summaries are measured in. -/
def Style.plain : Style := ⟨[','], [':'], false⟩

def Style.spaced : Style := ⟨[',', ' '], [':', ' '], true⟩

def Style.spacedPlain : Style := ⟨[',', ' '], [':', ' '], false⟩

def unitEscape (n : Nat) : List Char :=
  '\\' :: 'u' :: Text.hexDigits 4 n

def escapeChar (ascii : Bool) (c : Char) : List Char :=
  if c = '"' then ['\\', '"']
  else if c = '\\' then ['\\', '\\']
  else if c = '\n' then ['\\', 'n']
  else if c = '\r' then ['\\', 'r']
  else if c = '\t' then ['\\', 't']
  else if c = '\x08' then ['\\', 'b']
  else if c = '\x0c' then ['\\', 'f']
  else
    let n := c.toNat
    if n < 0x20 then unitEscape n
    else if n < 0x7f ∨ ascii = false then [c]
    else if n < 0x10000 then unitEscape n
    else unitEscape (0xd800 + (n - 0x10000) / 0x400) ++ unitEscape (0xdc00 + (n - 0x10000) % 0x400)

def writeString (ascii : Bool) (s : String) : List Char :=
  '"' :: s.toList.flatMap (escapeChar ascii) ++ ['"']

def writeInt (n : Int) : List Char :=
  if n < 0 then '-' :: Nat.toDigits 10 n.natAbs else Nat.toDigits 10 n.natAbs

def writeNumber : Number → List Char
  | .int n => writeInt n
  | .float x =>
    match Decimal.parts x with
    | .nan => "NaN".toList
    | .infinite negative => (if negative then "-Infinity" else "Infinity").toList
    | .finite .. => (Decimal.floatText x).toList

mutual

def write (style : Style) : Json → List Char
  | .null => "null".toList
  | .bool b => (if b then "true" else "false").toList
  | .num n => writeNumber n
  | .str s => writeString style.ascii s
  | .arr [] => ['[', ']']
  | .arr (x :: xs) => '[' :: write style x ++ writeItems style xs
  | .obj [] => ['\x7b', '\x7d']
  | .obj ((k, v) :: ms) =>
    '\x7b' :: writeString style.ascii k ++ style.keyGap ++ write style v ++ writeMembers style ms

def writeItems (style : Style) : List Json → List Char
  | [] => [']']
  | x :: xs => style.itemGap ++ write style x ++ writeItems style xs

def writeMembers (style : Style) : List (String × Json) → List Char
  | [] => ['\x7d']
  | (k, v) :: ms =>
    style.itemGap ++ writeString style.ascii k ++ style.keyGap ++ write style v ++
      writeMembers style ms

end

def newLine (depth : Nat) : List Char :=
  '\n' :: List.replicate (2 * depth) ' '

mutual

def writeIndented (depth : Nat) : Json → List Char
  | .arr [] => ['[', ']']
  | .arr (x :: xs) =>
    '[' :: newLine (depth + 1) ++ writeIndented (depth + 1) x ++ writeIndentedItems depth xs
  | .obj [] => ['\x7b', '\x7d']
  | .obj ((k, v) :: ms) =>
    '\x7b' :: newLine (depth + 1) ++ writeString true k ++ [':', ' '] ++
      writeIndented (depth + 1) v ++ writeIndentedMembers depth ms
  | .null => write .spaced .null
  | .bool b => write .spaced (.bool b)
  | .num n => write .spaced (.num n)
  | .str s => write .spaced (.str s)

def writeIndentedItems (depth : Nat) : List Json → List Char
  | [] => newLine depth ++ [']']
  | x :: xs =>
    ',' :: newLine (depth + 1) ++ writeIndented (depth + 1) x ++ writeIndentedItems depth xs

def writeIndentedMembers (depth : Nat) : List (String × Json) → List Char
  | [] => newLine depth ++ ['\x7d']
  | (k, v) :: ms =>
    ',' :: newLine (depth + 1) ++ writeString true k ++ [':', ' '] ++
      writeIndented (depth + 1) v ++ writeIndentedMembers depth ms

end

def render (style : Style) (j : Json) : String :=
  String.ofList (write style j)

def renderIndented (j : Json) : String :=
  String.ofList (writeIndented 0 j)

end Latency.Json

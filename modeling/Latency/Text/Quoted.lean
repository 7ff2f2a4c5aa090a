import Latency.Text.Printable
/-!
# Quoted text

A text between quotes, with escapes for what has no visible form. The quote is `'`, unless the text
holds a `'` and no `"`.
-/

namespace Latency.Text

/-- The low digits of a number in base sixteen, exactly `width` of them. -/
def hexDigits (width n : Nat) : List Char :=
  match width with
  | 0 => []
  | w + 1 => hexDigits w (n / 16) ++ [Nat.digitChar (n % 16)]

/-- The escape of a code point: two, four or eight digits, as many as it needs. -/
def escapeCode (n : Nat) : List Char :=
  if n < 0x100 then '\\' :: 'x' :: hexDigits 2 n
  else if n < 0x10000 then '\\' :: 'u' :: hexDigits 4 n
  else '\\' :: 'U' :: hexDigits 8 n

def quoteChar (quote c : Char) : List Char :=
  if c = quote ∨ c = '\\' then ['\\', c]
  else if c = '\n' then ['\\', 'n']
  else if c = '\r' then ['\\', 'r']
  else if c = '\t' then ['\\', 't']
  else if isPrintable c then [c]
  else escapeCode c.toNat

def chosenQuote (cs : List Char) : Char :=
  if cs.contains '\'' && !cs.contains '"' then '"' else '\''

def quoted (s : String) : String :=
  let cs := s.toList
  let q := chosenQuote cs
  String.ofList (q :: cs.flatMap (quoteChar q) ++ [q])

def quotedBytes (bs : List UInt8) : String :=
  let cs := bs.map fun b => Char.ofNat b.toNat
  let q := chosenQuote cs
  let one (c : Char) : List Char :=
    if c.toNat < 0x7f then quoteChar q c else escapeCode c.toNat
  String.ofList ('b' :: q :: cs.flatMap one ++ [q])

end Latency.Text

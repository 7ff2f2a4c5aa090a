/-!
# UTF-8

Characters as octets and back. Reading never fails: each maximal run of octets that begins a
character but does not complete it becomes one U+FFFD.
-/

namespace Latency.Text

def encodeUtf8 (cs : List Char) : List UInt8 :=
  cs.flatMap String.utf8EncodeChar

def replacement : Char := '\uFFFD'

/-- The character of a code point; one half of a surrogate pair is no character. -/
def charOfCode (n : Nat) : Char :=
  if n.isValidChar then Char.ofNat n else replacement

/-- The second octets that a leading octet admits, and how many octets the character has. -/
def leadInfo? (b : UInt8) : Option (Nat × UInt8 × UInt8) :=
  if 0xc2 ≤ b && b ≤ 0xdf then some (2, 0x80, 0xbf)
  else if b == 0xe0 then some (3, 0xa0, 0xbf)
  else if b == 0xed then some (3, 0x80, 0x9f)
  else if 0xe1 ≤ b && b ≤ 0xef then some (3, 0x80, 0xbf)
  else if b == 0xf0 then some (4, 0x90, 0xbf)
  else if 0xf1 ≤ b && b ≤ 0xf3 then some (4, 0x80, 0xbf)
  else if b == 0xf4 then some (4, 0x80, 0x8f)
  else none

def isContinuation (b : UInt8) : Bool :=
  0x80 ≤ b && b ≤ 0xbf

private def low6 (b : UInt8) : Nat := b.toNat % 64

/-- One character from the front of the octets, or `none` for a run that is no character, with the
octets behind it. -/
def nextChar : List UInt8 → Option (Option Char × List UInt8)
  | [] => none
  | b :: rest =>
    if b < 0x80 then some (some (Char.ofNat b.toNat), rest)
    else
      match leadInfo? b with
      | none => some (none, rest)
      | some (size, low, high) =>
        match rest with
        | [] => some (none, [])
        | b1 :: rest1 =>
          if !(low ≤ b1 && b1 ≤ high) then some (none, b1 :: rest1)
          else if size == 2 then
            some (some (Char.ofNat (b.toNat % 32 * 64 + low6 b1)), rest1)
          else
            match rest1 with
            | [] => some (none, [])
            | b2 :: rest2 =>
              if !isContinuation b2 then some (none, b2 :: rest2)
              else if size == 3 then
                some (some (Char.ofNat (b.toNat % 16 * 4096 + low6 b1 * 64 + low6 b2)), rest2)
              else
                match rest2 with
                | [] => some (none, [])
                | b3 :: rest3 =>
                  if !isContinuation b3 then some (none, b3 :: rest3)
                  else
                    some (some (Char.ofNat
                      (b.toNat % 8 * 262144 + low6 b1 * 4096 + low6 b2 * 64 + low6 b3)), rest3)

theorem nextChar_shorter {bs rest : List UInt8} {c : Option Char}
    (h : nextChar bs = some (c, rest)) : rest.length < bs.length := by
  unfold nextChar at h
  repeat' split at h
  all_goals first
    | (simp at h; done)
    | (simp only [Option.some.injEq, Prod.mk.injEq] at h
       rw [← h.2]
       simp only [List.length_cons, List.length_nil]
       omega)

def decodeMarked (bs : List UInt8) : List (Option Char) :=
  match _h : nextChar bs with
  | none => []
  | some (c, rest) => c :: decodeMarked rest
termination_by bs.length
decreasing_by exact nextChar_shorter _h

/-- The text of the octets, with a replacement sign for what is no character. -/
def decodeUtf8 (bs : List UInt8) : List Char :=
  (decodeMarked bs).map (·.getD replacement)

def decodeUtf8? (bs : List UInt8) : Option (List Char) :=
  (decodeMarked bs).mapM id

end Latency.Text

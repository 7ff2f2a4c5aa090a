import Latency.Json.Parser
import Latency.Json.Printer
import Latency.Text.Numeral
/-!
# Frames

A message on the wire is a block of header lines, a blank line and a body whose length the
`Content-Length` header gives. Reading passes over lines that are no header, blocks without a usable
length and bodies that are not JSON. `read` takes one message off the front of a stream, `messages`
all of them. A source may have a limit to how many octets it can be asked for; a longer body is not
read at all.
-/

namespace Latency.Frame

def ascii (s : String) : List UInt8 :=
  s.toList.map fun c => UInt8.ofNat c.toNat

def header (size : Nat) : List UInt8 :=
  ascii "Content-Length: " ++ ascii (String.ofList (Nat.toDigits 10 size)) ++ ascii "\r\n\r\n"

def body (message : Json) : List UInt8 :=
  Text.encodeUtf8 (Json.write .compact message)

def encode (message : Json) : List UInt8 :=
  header (body message).length ++ body message

def takeLine : List UInt8 → List UInt8 × List UInt8
  | [] => ([], [])
  | b :: rest => if b = 10 then ([b], rest) else (b :: (takeLine rest).1, (takeLine rest).2)

theorem takeLine_append (bs : List UInt8) : (takeLine bs).1 ++ (takeLine bs).2 = bs := by
  induction bs with
  | nil => rfl
  | cons b rest ih =>
    simp only [takeLine]
    split
    · rfl
    · simp [ih]

theorem length_takeLine_cons (b : UInt8) (rest : List UInt8) :
    (takeLine (b :: rest)).2.length < (b :: rest).length := by
  have h := congrArg List.length (takeLine_append rest)
  simp only [List.length_append] at h
  simp only [takeLine]
  split
  · simp
  · simp only [List.length_cons]; omega

/-- Whether the octets that were read, those before `rest`, end with a line feed: there are octets
behind them, or the last one is one. -/
def closesLine (bs rest : List UInt8) : Bool :=
  !rest.isEmpty || bs.getLast? == some 10

def isBlankOctet (b : UInt8) : Bool :=
  b == 32 || (9 ≤ b && b ≤ 13)

def isBlankLine (line : List UInt8) : Bool :=
  line.all isBlankOctet

def asciiChar (b : UInt8) : Char :=
  if b < 0x80 then Char.ofNat b.toNat else Text.replacement

/-- The name, in lower case, and the value of a line with a colon. -/
def field? (line : List UInt8) : Option (String × String) :=
  let cs := line.map asciiChar
  match cs.dropWhile (· != ':') with
  | [] => none
  | _ :: value =>
    let name := Text.trimBy Text.isBlank (cs.takeWhile (· != ':'))
    some (String.ofList (name.map Char.toLower), String.ofList (Text.trimBy Text.isBlank value))

structure Head where
  known : Bool := false
  /-- The last length it names. -/
  length : String := ""
deriving Repr, DecidableEq

def Head.add (head : Head) (line : List UInt8) : Head :=
  match field? line with
  | some (name, value) =>
    if name = "content-length" then { known := true, length := value }
    else if name = "content-type" then { head with known := true }
    else head
  | none => head

/-- Reads lines up to the blank line that closes the block; `none` at the end of the stream. -/
def readHead (head : Head) : List UInt8 → Option (Head × List UInt8)
  | [] => none
  | b :: rest =>
    let line := takeLine (b :: rest)
    if isBlankLine line.1 then
      if head.known then some (head, line.2) else readHead head line.2
    else readHead (head.add line.1) line.2
termination_by bs => bs.length
decreasing_by all_goals exact length_takeLine_cons b rest

theorem readHead_shorter {head found : Head} {bs rest : List UInt8}
    (h : readHead head bs = some (found, rest)) : rest.length < bs.length := by
  fun_induction readHead head bs with
  | case1 => simp at h
  | case2 head b tail line _ _ =>
    obtain ⟨-, rfl⟩ := Prod.mk.inj (Option.some.inj h)
    exact length_takeLine_cons b tail
  | case3 head b tail line _ _ ih => exact Nat.lt_trans (ih h) (length_takeLine_cons b tail)
  | case4 head b tail line _ ih => exact Nat.lt_trans (ih h) (length_takeLine_cons b tail)

/-- The body length that a block asks for, if it is a positive number. -/
def Head.size? (head : Head) : Option Nat :=
  match Text.intOfText? head.length with
  | some (.ofNat (n + 1)) => some (n + 1)
  | _ => none

def parseBody (octets : List UInt8) : Option Json :=
  Json.parse? (Text.decodeUtf8 octets)

inductive Outcome where
  | value (message : Json)
  /-- The stream ended before another body began. -/
  | exhausted
  | truncated (expected got : Nat)
  /-- The source cannot be asked for a body of this length. -/
  | oversized (size : Nat)

/-- Whether a body of this length cannot be asked for: its length is too long for a header, or is
beyond a limit, if there is one. -/
def exceeds (limit : Option Nat) (size : Nat) : Bool :=
  decide (Text.mostDigits < (Nat.toDigits 10 size).length) ||
    limit.any fun most => decide (most < size)

theorem digits_le_of_not_exceeds {limit : Option Nat} {size : Nat}
    (h : exceeds limit size = false) : (Nat.toDigits 10 size).length ≤ Text.mostDigits := by
  rw [exceeds, Bool.or_eq_false_iff, decide_eq_false_iff_not] at h
  exact Nat.le_of_not_lt h.1

def read (limit : Option Nat) (bs : List UInt8) : Outcome × List UInt8 :=
  match _h : readHead {} bs with
  | none => (.exhausted, [])
  | some (head, rest) =>
    match head.size? with
    | none => read limit rest
    | some size =>
      if exceeds limit size then (.oversized size, rest)
      else if rest.length < size then (.truncated size rest.length, [])
      else
        match parseBody (rest.take size) with
        | some message => (.value message, rest.drop size)
        | none => read limit (rest.drop size)
termination_by bs.length
decreasing_by
  · exact readHead_shorter _h
  · have := readHead_shorter _h
    simp only [List.length_drop]
    omega

theorem read_shorter {limit : Option Nat} {bs rest : List UInt8} {message : Json}
    (h : read limit bs = (.value message, rest)) : rest.length < bs.length := by
  fun_induction read limit bs with
  | case1 => simp at h
  | case2 bs head tail found _ ih => exact Nat.lt_trans (ih h) (readHead_shorter found)
  | case3 => simp at h
  | case4 => simp at h
  | case5 bs head tail found size _ _ _ value _ =>
    obtain ⟨-, rfl⟩ := Prod.mk.inj h
    have := readHead_shorter found
    simp only [List.length_drop]
    omega
  | case6 bs head tail found size _ _ _ _ ih =>
    have := readHead_shorter found
    have := ih h
    simp only [List.length_drop] at this
    omega

/-- The messages of a stream, and whether a body beyond the limit breaks them off. A body `null`
ends them, as the end of the stream and a truncated body do. -/
def collect (limit : Option Nat) (bs : List UInt8) : List Json × Bool :=
  match _h : read limit bs with
  | (.value message, rest) =>
    match message with
    | .null => ([], false)
    | message => (message :: (collect limit rest).1, (collect limit rest).2)
  | (.oversized _, _) => ([], true)
  | _ => ([], false)
termination_by bs.length
decreasing_by all_goals exact read_shorter _h

def messages (limit : Option Nat) (bs : List UInt8) : List Json :=
  (collect limit bs).1

end Latency.Frame

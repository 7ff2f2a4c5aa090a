import Mathlib.Data.List.TakeWhile
import Mathlib.Tactic.Common
import Latency.Proofs.Frame.Stability
import Latency.Proofs.Text.Digits
/-!
# Streams of frames and noise

A stream is made of pieces: whole frames, and lines that name no length.  Such a line may still look
like a header, and a blank line may close a block that has no length; neither moves the reader off
the frames.  `messages_flatMap_octets` tells what is read of such a stream.
-/

namespace Latency.Frame

/-! ## Lines -/

def IsLine (line : List UInt8) : Prop :=
  line.getLast? = some 10 ∧ 10 ∉ line.dropLast

instance (line : List UInt8) : Decidable (IsLine line) :=
  inferInstanceAs (Decidable (_ ∧ _))

theorem isLine_append {front : List UInt8} (h : 10 ∉ front) : IsLine (front ++ [10]) := by
  simp [IsLine, h]

theorem takeLine_of_notMem {front : List UInt8} (h : 10 ∉ front) (rest : List UInt8) :
    takeLine (front ++ 10 :: rest) = (front ++ [10], rest) := by
  induction front with
  | nil => rfl
  | cons b front ih =>
    obtain ⟨hb, hfront⟩ := List.ne_and_not_mem_of_not_mem_cons h
    rw [List.cons_append, takeLine, if_neg (Ne.symm hb), ih hfront, List.cons_append]

theorem IsLine.takeLine {line : List UInt8} (h : IsLine line) (rest : List UInt8) :
    takeLine (line ++ rest) = (line, rest) := by
  obtain ⟨front, rfl⟩ := List.getLast?_eq_some_iff.1 h.1
  have hfront : 10 ∉ front := by simpa using h.2
  rw [List.append_assoc, List.singleton_append, takeLine_of_notMem hfront]

theorem IsLine.ne_nil {line : List UInt8} (h : IsLine line) : line ≠ [] := by
  rintro rfl
  cases h.1

def strippedText (octets : List UInt8) : List Char :=
  Text.trimBy Text.isBlank (octets.map asciiChar)

/-- The part of a line in front of its first colon, in lower case; a line without a colon has
none. -/
def nameOf? (line : List UInt8) : Option (List Char) :=
  if 58 ∈ line then some ((strippedText (line.takeWhile (· != 58))).map Char.toLower) else none

def valueOf (line : List UInt8) : List Char :=
  strippedText (line.dropWhile (· != 58)).tail

theorem takeWhile_colon {front : List UInt8} (h : 58 ∉ front) (rest : List UInt8) :
    (front ++ 58 :: rest).takeWhile (· != 58) = front := by
  rw [List.takeWhile_append_of_pos fun b hb => bne_iff_ne.2 (ne_of_mem_of_not_mem hb h)]
  exact List.append_nil front

theorem dropWhile_colon {front : List UInt8} (h : 58 ∉ front) (rest : List UInt8) :
    (front ++ 58 :: rest).dropWhile (· != 58) = 58 :: rest := by
  rw [List.dropWhile_append_of_pos fun b hb => bne_iff_ne.2 (ne_of_mem_of_not_mem hb h)]
  rfl

theorem nameOf?_colon {front : List UInt8} (h : 58 ∉ front) (rest : List UInt8) :
    nameOf? (front ++ 58 :: rest) = some ((strippedText front).map Char.toLower) := by
  rw [nameOf?, if_pos (by simp), takeWhile_colon h]

theorem valueOf_colon {front : List UInt8} (h : 58 ∉ front) (rest : List UInt8) :
    valueOf (front ++ 58 :: rest) = strippedText rest := by
  rw [valueOf, dropWhile_colon h, List.tail_cons]

theorem asciiChar_ne_colon (b : UInt8) : (asciiChar b != ':') = (b != 58) := by
  have hall : ∀ n < 256, (asciiChar (UInt8.ofNat n) != ':') = (UInt8.ofNat n != 58) := by
    decide +kernel
  have hb := hall b.toNat b.toNat_lt
  rwa [UInt8.ofNat_toNat] at hb

theorem field?_eq (line : List UInt8) :
    field? line =
      (nameOf? line).map fun name => (String.ofList name, String.ofList (valueOf line)) := by
  have hdecode : (fun c => c != ':') ∘ asciiChar = fun b => b != 58 :=
    funext asciiChar_ne_colon
  unfold field?
  simp only [List.dropWhile_map, List.takeWhile_map, hdecode]
  by_cases hcolon : 58 ∈ line
  · obtain ⟨front, rest, rfl, hfront⟩ := List.eq_append_cons_of_mem hcolon
    rw [nameOf?, if_pos hcolon, valueOf, dropWhile_colon hfront]
    rfl
  · have hnone : line.dropWhile (· != 58) = [] :=
      List.dropWhile_eq_nil_iff.2 fun b hb => bne_iff_ne.2 (ne_of_mem_of_not_mem hb hcolon)
    rw [hnone, nameOf?, if_neg hcolon]
    rfl

/-! ## Header blocks -/

def lengthName : List Char := "content-length".toList

/-- A line that gives no length, be it blank or another header. -/
structure Noise where
  line : List UInt8
  isLine : IsLine line
  gives_none : nameOf? line ≠ some lengthName

structure LengthLine (size : Nat) where
  line : List UInt8
  isLine : IsLine line
  name_eq : nameOf? line = some lengthName
  value_eq : valueOf line = Nat.toDigits 10 size

/-- A blank line, which closes a header block. -/
structure BlankLine where
  line : List UInt8
  isLine : IsLine line
  isBlank : isBlankLine line = true

def BlankLine.written : BlankLine :=
  ⟨ascii "\r\n", by decide, by decide⟩

theorem readHead_blank {head : Head} {line : List UInt8} (hline : IsLine line)
    (hblank : isBlankLine line = true) (rest : List UInt8) :
    readHead head (line ++ rest) =
      if head.known then some (head, rest) else readHead head rest := by
  have htake := hline.takeLine rest
  obtain ⟨b, tail, rfl⟩ := List.exists_cons_of_ne_nil hline.ne_nil
  rw [List.cons_append] at htake ⊢
  rw [readHead, htake, if_pos hblank]

theorem readHead_header {head : Head} {line : List UInt8} (hline : IsLine line)
    (hfull : isBlankLine line = false) (rest : List UInt8) :
    readHead head (line ++ rest) = readHead (head.add line) rest := by
  have htake := hline.takeLine rest
  obtain ⟨b, tail, rfl⟩ := List.exists_cons_of_ne_nil hline.ne_nil
  rw [List.cons_append] at htake ⊢
  rw [readHead, htake, hfull]
  rfl

theorem add_noise (head : Head) (noise : Noise) :
    (head.add noise.line).length = head.length ∧
      (head.known = true → (head.add noise.line).known = true) := by
  rw [Head.add, field?_eq]
  cases hname : nameOf? noise.line with
  | none => exact ⟨rfl, id⟩
  | some name =>
    have hother : String.ofList name ≠ "content-length" := by
      intro heq
      have hlength : name = lengthName :=
        String.toList_ofList.symm.trans (congrArg String.toList heq)
      exact noise.gives_none (hname.trans (congrArg some hlength))
    simp only [Option.map_some, hother, if_false]
    split <;> simp

theorem add_lengthLine (head : Head) {size : Nat} (given : LengthLine size) :
    head.add given.line = { known := true, length := String.ofList (Nat.toDigits 10 size) } := by
  rw [Head.add, field?_eq, given.name_eq, given.value_eq]
  rfl

theorem LengthLine.isBlankLine_eq {size : Nat} (given : LengthLine size) :
    isBlankLine given.line = false := by
  have hcolon : 58 ∈ given.line := by
    by_contra hnone
    have hname := given.name_eq
    rw [nameOf?, if_neg hnone] at hname
    cases hname
  rw [isBlankLine, List.all_eq_false]
  exact ⟨58, hcolon, by decide⟩

theorem readHead_noise (noises : List Noise) (h : ∀ noise ∈ noises, isBlankLine noise.line = false)
    (head : Head) :
    ∃ next : Head, next.length = head.length ∧ (head.known = true → next.known = true) ∧
      ∀ rest, readHead head (noises.flatMap Noise.line ++ rest) = readHead next rest := by
  induction noises generalizing head with
  | nil => exact ⟨head, rfl, id, fun rest => rfl⟩
  | cons noise noises ih =>
    obtain ⟨hfull, hothers⟩ := List.forall_mem_cons.1 h
    obtain ⟨hlength, hknown⟩ := add_noise head noise
    obtain ⟨next, hnext, hnextKnown, hread⟩ := ih hothers (head.add noise.line)
    refine ⟨next, hnext.trans hlength, fun hk => hnextKnown (hknown hk), fun rest => ?_⟩
    rw [List.flatMap_cons, List.append_assoc, readHead_header noise.isLine hfull, hread]

/-! ## Frames -/

/-- A whole frame: one line gives the length of the body, and other headers may stand around it. -/
structure Framed where
  body : List UInt8
  before : List Noise
  given : LengthLine body.length
  after : List Noise
  closing : BlankLine
  full : ∀ noise ∈ before ++ after, isBlankLine noise.line = false
  body_ne : body ≠ []

namespace Framed

def block (f : Framed) : List UInt8 :=
  f.before.flatMap Noise.line ++ (f.given.line ++ (f.after.flatMap Noise.line ++ f.closing.line))

def octets (f : Framed) : List UInt8 :=
  f.block ++ f.body

end Framed

theorem size?_digits {head : Head} {size : Nat}
    (h : head.length = String.ofList (Nat.toDigits 10 size)) (hpos : 0 < size)
    (hdigits : (Nat.toDigits 10 size).length ≤ Text.mostDigits) : head.size? = some size := by
  obtain ⟨n, rfl⟩ := Nat.exists_eq_succ_of_ne_zero (Nat.ne_of_gt hpos)
  rw [Head.size?, h, Text.intOfText?_toDigits hdigits]

/-- Whatever was noted before a frame, its own length counts. -/
theorem readHead_framed (head : Head) (f : Framed)
    (hdigits : (Nat.toDigits 10 f.body.length).length ≤ Text.mostDigits) :
    ∃ found : Head, found.size? = some f.body.length ∧
      ∀ rest, readHead head (f.block ++ rest) = some (found, rest) := by
  have hbefore : ∀ noise ∈ f.before, isBlankLine noise.line = false :=
    fun noise hn => f.full noise (List.mem_append_left _ hn)
  have hafter : ∀ noise ∈ f.after, isBlankLine noise.line = false :=
    fun noise hn => f.full noise (List.mem_append_right _ hn)
  obtain ⟨next, -, -, hnext⟩ := readHead_noise f.before hbefore head
  obtain ⟨found, hlength, hknown, hfound⟩ := readHead_noise f.after hafter (next.add f.given.line)
  rw [add_lengthLine] at hlength hknown
  refine ⟨found, size?_digits hlength (List.length_pos_iff.2 f.body_ne) hdigits, fun rest => ?_⟩
  rw [Framed.block, List.append_assoc, hnext, List.append_assoc,
    readHead_header f.given.isLine f.given.isBlankLine_eq, List.append_assoc, hfound,
    readHead_blank f.closing.isLine f.closing.isBlank, if_pos (hknown rfl)]

/-! ## Reading from within a block -/

/-- Reads one message when the headers in `head` were read already. -/
def readFrom (limit : Option Nat) (head : Head) (bs : List UInt8) : Outcome × List UInt8 :=
  match readHead head bs with
  | none => (.exhausted, [])
  | some (found, rest) =>
    match found.size? with
    | none => read limit rest
    | some size =>
      if exceeds limit size then (.oversized size, rest)
      else if rest.length < size then (.truncated size rest.length, [])
      else
        match parseBody (rest.take size) with
        | some message => (.value message, rest.drop size)
        | none => read limit (rest.drop size)

theorem read_eq_readFrom (limit : Option Nat) (bs : List UInt8) :
    read limit bs = readFrom limit {} bs := by
  unfold readFrom
  cases hhead : readHead {} bs with
  | none => exact read_of_readHead_none limit hhead
  | some found => exact read_of_readHead_some limit hhead

theorem readFrom_framed (limit : Option Nat) (head : Head) (f : Framed)
    (h : exceeds limit f.body.length = false) (rest : List UInt8) :
    readFrom limit head (f.octets ++ rest) =
      match parseBody f.body with
      | some message => (.value message, rest)
      | none => read limit rest := by
  obtain ⟨found, hsize, hfound⟩ := readHead_framed head f (digits_le_of_not_exceeds h)
  have hshort : ¬ (f.body ++ rest).length < f.body.length := by
    rw [List.length_append]
    omega
  rw [readFrom, Framed.octets, List.append_assoc, hfound]
  simp only [hsize, h, Bool.false_eq_true, if_false, hshort, List.take_left, List.drop_left]

theorem size?_of_length_eq_empty {head : Head} (h : head.length = "") : head.size? = none := by
  rw [Head.size?, h]
  rfl

theorem readFrom_noise (limit : Option Nat) {head : Head} (h : head.length = "") (noise : Noise) :
    ∃ next : Head, next.length = "" ∧
      ∀ rest, readFrom limit head (noise.line ++ rest) = readFrom limit next rest := by
  by_cases hblank : isBlankLine noise.line = true
  · by_cases hknown : head.known = true
    · -- the block is over and nothing can be read by it
      refine ⟨{}, rfl, fun rest => ?_⟩
      rw [readFrom, readHead_blank noise.isLine hblank, if_pos hknown, ← read_eq_readFrom]
      simp only [size?_of_length_eq_empty h]
    · refine ⟨head, h, fun rest => ?_⟩
      rw [readFrom, readHead_blank noise.isLine hblank, if_neg hknown, readFrom]
  · refine ⟨head.add noise.line, (add_noise head noise).1.trans h, fun rest => ?_⟩
    rw [readFrom, readHead_header noise.isLine (Bool.eq_false_iff.2 hblank), readFrom]

/-! ## Streams -/

inductive Piece where
  | noise (n : Noise)
  | framed (f : Framed)

namespace Piece

def octets : Piece → List UInt8
  | .noise n => n.line
  | .framed f => f.octets

def value? : Piece → Option Json
  | .noise _ => none
  | .framed f => parseBody f.body

def Fits (limit : Option Nat) : Piece → Prop
  | .noise _ => True
  | .framed f => exceeds limit f.body.length = false

instance (limit : Option Nat) (p : Piece) : Decidable (p.Fits limit) :=
  match p with
  | .noise _ => inferInstanceAs (Decidable True)
  | .framed f => inferInstanceAs (Decidable (exceeds limit f.body.length = false))

end Piece

def goesOn : Json → Bool
  | .null => false
  | _ => true

theorem goesOn_of_ne_null {m : Json} (h : m ≠ .null) : goesOn m = true := by
  cases m with
  | null => exact absurd rfl h
  | bool | num | str | arr | obj => rfl

theorem readFrom_nil (limit : Option Nat) (head : Head) :
    readFrom limit head [] = (.exhausted, []) := by
  rw [readFrom, readHead]

/-- What is read where a stream of pieces goes on, after headers that give no length. -/
theorem messages_of_readFrom (limit : Option Nat) (pieces : List Piece)
    (hfits : ∀ p ∈ pieces, p.Fits limit) {head : Head} (hhead : head.length = "")
    {bs : List UInt8} (hbs : read limit bs = readFrom limit head (pieces.flatMap Piece.octets)) :
    messages limit bs = (pieces.filterMap Piece.value?).takeWhile goesOn := by
  induction pieces generalizing head bs with
  | nil =>
    apply messages_of_no_value
    intro m rest hread
    rw [hbs, List.flatMap_nil, readFrom_nil] at hread
    cases hread
  | cons piece pieces ih =>
    obtain ⟨hfirst, hothers⟩ := List.forall_mem_cons.1 hfits
    rw [List.flatMap_cons] at hbs
    cases piece with
    | noise n =>
      obtain ⟨next, hnext, hread⟩ := readFrom_noise limit hhead n
      exact ih hothers hnext (hbs.trans (hread _))
    | framed f =>
      rw [Piece.octets, readFrom_framed limit head f hfirst] at hbs
      cases hbody : parseBody f.body with
      | none =>
        have hvalue : (Piece.framed f).value? = none := hbody
        rw [hbody] at hbs
        rw [List.filterMap_cons_none hvalue]
        exact ih hothers rfl (hbs.trans (read_eq_readFrom limit _))
      | some m =>
        have hvalue : (Piece.framed f).value? = some m := hbody
        rw [hbody] at hbs
        rw [List.filterMap_cons_some hvalue]
        have hrest := ih hothers rfl (read_eq_readFrom limit _)
        by_cases hm : m = .null
        · subst hm
          apply messages_of_no_value
          intro m rest hread
          rw [hbs] at hread
          exact (Outcome.value.inj (Prod.mk.inj hread).1).symm
        · rw [messages_of_value hbs hm, hrest, List.takeWhile_cons_of_pos (goesOn_of_ne_null hm)]

/-- **A stream is read by its frames.**  Noise before, between and after the frames and bodies that
are no JSON do not count; a body `null` ends the messages. -/
theorem messages_flatMap_octets (limit : Option Nat) (pieces : List Piece)
    (hfits : ∀ p ∈ pieces, p.Fits limit) :
    messages limit (pieces.flatMap Piece.octets) =
      (pieces.filterMap Piece.value?).takeWhile goesOn :=
  messages_of_readFrom limit pieces hfits rfl (read_eq_readFrom limit _)

/-- **Resynchronisation.**  Where every body is the text of an object or no JSON at all, the
messages are the objects, in order: no noise and no such body loses, alters or moves another
frame. -/
theorem messages_of_noisy_frames (limit : Option Nat) (pieces : List Piece)
    (hfits : ∀ p ∈ pieces, p.Fits limit)
    (hbodies : ∀ p ∈ pieces, p.value?.all Json.isObject = true) :
    messages limit (pieces.flatMap Piece.octets) = pieces.filterMap Piece.value? := by
  have hgoesOn : ∀ m ∈ pieces.filterMap Piece.value?, goesOn m = true := by
    intro m hm
    obtain ⟨p, hp, hvalue⟩ := List.mem_filterMap.1 hm
    have hobject := hbodies p hp
    rw [hvalue, Option.all_some] at hobject
    apply goesOn_of_ne_null
    rintro rfl
    cases hobject
  rw [messages_flatMap_octets limit pieces hfits, List.takeWhile_eq_self_iff.2 hgoesOn]

def traceOutput : List Piece := [
  .noise ⟨ascii "up: 1\n", by decide, by decide⟩,
  .noise ⟨ascii "Content-Type: text\r\n", by decide, by decide⟩,
  .noise ⟨ascii "\r\n", by decide, by decide⟩,
  .framed {
    body := ascii "\x7b\x7d"
    before := [⟨ascii "x-id: 1\r\n", by decide, by decide⟩]
    given := ⟨ascii "cONTENT-length : 2 \r\n", by decide, by decide, by decide⟩
    after := [⟨ascii "content-length\n", by decide, by decide⟩]
    closing := ⟨ascii " \r\n", by decide, by decide⟩
    full := by decide
    body_ne := by decide },
  .noise ⟨ascii "\n", by decide, by decide⟩,
  .framed {
    body := ascii "\x7b"
    before := []
    given := ⟨ascii "Content-Length:1\n", by decide, by decide, by decide⟩
    after := []
    closing := ⟨ascii "\n", by decide, by decide⟩
    full := by decide
    body_ne := by decide },
  .framed {
    body := ascii "\x7b\"a\": 1\x7d"
    before := []
    given := ⟨ascii "Content-Length: 8\r\n", by decide, by decide, by decide⟩
    after := [⟨ascii "Content-Type: json\r\n", by decide, by decide⟩]
    closing := .written
    full := by decide
    body_ne := by decide }]

theorem messages_of_noisy_frames_traceOutput :
    (messages (some 64) (traceOutput.flatMap Piece.octets)).map (Json.write .compact) =
      ["\x7b\x7d".toList, "\x7b\"a\":1\x7d".toList] := by
  rw [messages_of_noisy_frames (some 64) traceOutput (by decide) (by decide +kernel)]
  decide +kernel

end Latency.Frame

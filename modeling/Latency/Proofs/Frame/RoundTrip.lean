import Latency.Proofs.Frame.Pieces
import Latency.Proofs.Json.RoundTrip
/-!
# Messages that are written and read

The frame of a message is one of the frames that a stream is read by, and its body is read back to
the message.
-/

namespace Latency.Frame

open Json (Plain)

/-! ## Headers -/

theorem asciiChar_octet {c : Char} (h : c.toNat < 0x80) : asciiChar (UInt8.ofNat c.toNat) = c := by
  rw [asciiChar, if_pos (Text.octet_lt h), Text.toNat_octet h, Char.ofNat_toNat]

theorem map_asciiChar_ascii {cs : List Char} (h : Text.IsAscii cs) :
    (ascii (String.ofList cs)).map asciiChar = cs := by
  rw [ascii, String.toList_ofList, List.map_map]
  exact (List.map_congr_left fun c hc => asciiChar_octet (h c hc)).trans (List.map_id cs)

def digitOctets (n : Nat) : List UInt8 :=
  ascii (String.ofList (Nat.toDigits 10 n))

def lengthLine (size : Nat) : List UInt8 :=
  ascii "Content-Length" ++ 58 :: (ascii " " ++ (digitOctets size ++ ascii "\r\n"))

theorem header_eq (size : Nat) : header size = lengthLine size ++ ascii "\r\n" := by
  rw [header, lengthLine]
  simp only [List.append_assoc, List.cons_append]
  rfl

theorem lineFeed_notMem_digitOctets (n : Nat) : 10 ∉ digitOctets n := by
  intro hmem
  rw [digitOctets, ascii, String.toList_ofList] at hmem
  obtain ⟨c, hc, hoctet⟩ := List.mem_map.1 hmem
  have hdigit := Text.toNat_of_isDigit (Text.isDigit_of_mem_toDigits hc)
  have hvalue := Text.toNat_octet (show c.toNat < 0x80 by omega)
  have hten : (UInt8.ofNat c.toNat).toNat = 10 := congrArg UInt8.toNat hoctet
  omega

theorem isLine_lengthLine (size : Nat) : IsLine (lengthLine size) := by
  have hfront : 10 ∉ ascii "Content-Length" ++ 58 :: (ascii " " ++ (digitOctets size ++ [13])) := by
    simp only [List.mem_append, List.mem_cons, not_or]
    exact ⟨by decide, by decide, by decide, lineFeed_notMem_digitOctets size, by decide⟩
  have hline := isLine_append hfront
  simp only [List.append_assoc, List.cons_append] at hline
  exact hline

theorem nameOf?_lengthLine (size : Nat) : nameOf? (lengthLine size) = some lengthName := by
  rw [lengthLine, nameOf?_colon (by decide)]
  decide

theorem valueOf_lengthLine (size : Nat) : valueOf (lengthLine size) = Nat.toDigits 10 size := by
  have hdigits (c : Char) (hc : c ∈ Nat.toDigits 10 size) : Text.isDigit c = true :=
    Text.isDigit_of_mem_toDigits hc
  rw [lengthLine, valueOf_colon (by decide), strippedText, List.map_append, List.map_append,
    digitOctets, map_asciiChar_ascii (Text.isAscii_digits hdigits)]
  exact Text.trimBy_around (List.all_eq_true.1 (by decide))
    (fun c hc => Text.isBlank_of_isDigit (hdigits c hc)) (List.all_eq_true.1 (by decide))

/-! ## Bodies -/

theorem parseBody_body {m : Json} (h : Plain m) : parseBody (body m) = some m := by
  rw [parseBody, body, Text.decodeUtf8_encodeUtf8 h.isAscii, Json.parse?_write h]

theorem body_ne_nil {m : Json} (h : Plain m) : body m ≠ [] := by
  intro hnil
  have hparse := parseBody_body h
  rw [hnil, parseBody, Text.decodeUtf8, Text.decodeMarked] at hparse
  cases hparse

def framed {m : Json} (h : Plain m) : Framed where
  body := body m
  before := []
  given :=
    ⟨lengthLine (body m).length, isLine_lengthLine _, nameOf?_lengthLine _, valueOf_lengthLine _⟩
  after := []
  closing := .written
  full := List.forall_mem_nil _
  body_ne := body_ne_nil h

theorem octets_framed {m : Json} (h : Plain m) : (framed h).octets = encode m := by
  rw [encode, header_eq]
  rfl

theorem value?_framed {m : Json} (h : Plain m) : (Piece.framed (framed h)).value? = some m :=
  parseBody_body h

/-! ## Messages -/

/-- A message that can be sent and received: an object without doubles whose body is within a
limit. -/
structure Sendable (limit : Option Nat) (m : Json) : Prop where
  plain : Plain m
  isObject : m.isObject = true
  fits : exceeds limit (body m).length = false

theorem Sendable.ne_null {limit : Option Nat} {m : Json} (h : Sendable limit m) : m ≠ .null := by
  rintro rfl
  cases h.isObject

theorem read_framed {limit : Option Nat} {m : Json} (h : Plain m)
    (hfits : exceeds limit (body m).length = false) (rest : List UInt8) :
    read limit (encode m ++ rest) = (.value m, rest) := by
  have hread := readFrom_framed limit {} (framed h) hfits rest
  have hbody : parseBody (framed h).body = some m := parseBody_body h
  rw [octets_framed, hbody] at hread
  rw [read_eq_readFrom, hread]

theorem read_encode {limit : Option Nat} {m : Json} (h : Sendable limit m) (rest : List UInt8) :
    read limit (encode m ++ rest) = (.value m, rest) :=
  read_framed h.plain h.fits rest

theorem messages_encode {limit : Option Nat} {ms : List Json} (h : ∀ m ∈ ms, Sendable limit m) :
    messages limit (ms.flatMap encode) = ms := by
  induction ms with
  | nil => exact messages_of_no_value fun m rest hread => by simp [read_nil] at hread
  | cons m ms ih =>
    obtain ⟨hm, hms⟩ := List.forall_mem_cons.1 h
    rw [List.flatMap_cons, messages_of_value (read_encode hm _) hm.ne_null, ih hms]

/-- **Round trip.**  A message is read back from its frame, and what stands behind the frame is
left; so a stream of frames gives its messages. -/
theorem read_messages_encode (limit : Option Nat) :
    (∀ m, Sendable limit m → ∀ rest, read limit (encode m ++ rest) = (.value m, rest)) ∧
      ∀ ms, (∀ m ∈ ms, Sendable limit m) → messages limit (ms.flatMap encode) = ms :=
  ⟨fun _ h rest => read_encode h rest, fun _ h => messages_encode h⟩

def manifold : Json :=
  .obj [("id", .int (-12)), ("a\"\\", .str "\né😀"),
    ("items", .arr [.null, .bool true, .obj [], .arr [.int 0]])]

theorem plain_manifold : Plain manifold := by
  have hzero : Plain (.arr [.int 0]) := .arr (by simpa using .int (by decide))
  have hempty : Plain (.obj []) := .obj (by decide) (by simp)
  have hitems : Plain (.arr [.null, .bool true, .obj [], .arr [.int 0]]) :=
    .arr (by simp [Plain.null, Plain.bool, hempty, hzero])
  have hid : Plain (.int (-12)) := .int (by decide)
  exact .obj (by decide) (by simp [hid, Plain.str, hitems])

theorem read_messages_encode_manifold :
    read (some 128) (encode manifold ++ [0xff, 10]) = (.value manifold, [0xff, 10]) ∧
      messages (some 128) ([manifold, manifold].flatMap encode) = [manifold, manifold] := by
  have hsendable : Sendable (some 128) manifold := ⟨plain_manifold, rfl, by decide +kernel⟩
  obtain ⟨hread, hmessages⟩ := read_messages_encode (some 128)
  exact ⟨hread manifold hsendable [0xff, 10], hmessages _ (by simp [hsendable])⟩

end Latency.Frame

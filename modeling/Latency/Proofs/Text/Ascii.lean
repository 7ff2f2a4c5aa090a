import Mathlib.Tactic.Common
import Latency.Text.Quoted
import Latency.Text.Utf8
import Latency.Proofs.Text.Digits
/-!
# ASCII text

A character of ASCII is one octet with its own number, in UTF-8 as elsewhere, and that octet is read
as the character again (`decodeUtf8_encodeUtf8`).
-/

namespace Latency.Text

def IsAscii (cs : List Char) : Prop :=
  ∀ c ∈ cs, c.toNat < 0x80

instance (cs : List Char) : Decidable (IsAscii cs) :=
  List.decidableBAll _ cs

theorem IsAscii.append {cs ds : List Char} (hcs : IsAscii cs) (hds : IsAscii ds) :
    IsAscii (cs ++ ds) := by
  intro c hc
  exact (List.mem_append.1 hc).elim (hcs c) (hds c)

theorem IsAscii.cons {c : Char} {cs : List Char} (hc : c.toNat < 0x80) (hcs : IsAscii cs) :
    IsAscii (c :: cs) :=
  List.forall_mem_cons.2 ⟨hc, hcs⟩

theorem isAscii_digits {ds : List Char} (h : ∀ c ∈ ds, isDigit c = true) : IsAscii ds := by
  intro c hc
  have := toNat_of_isDigit (h c hc)
  omega

theorem isAscii_hexDigits (width n : Nat) : IsAscii (hexDigits width n) := by
  have hdigit : ∀ d < 16, (Nat.digitChar d).toNat < 0x80 := by
    decide
  induction width generalizing n with
  | zero => exact fun c hc => absurd hc (List.not_mem_nil)
  | succ width ih =>
    exact (ih (n / 16)).append (.cons (hdigit _ (Nat.mod_lt _ (by omega))) (by decide))

theorem toNat_octet {c : Char} (h : c.toNat < 0x80) : (UInt8.ofNat c.toNat).toNat = c.toNat :=
  UInt8.toNat_ofNat_of_lt' (show c.toNat < 256 by omega)

theorem octet_lt {c : Char} (h : c.toNat < 0x80) : UInt8.ofNat c.toNat < 0x80 := by
  rw [UInt8.lt_iff_toNat_lt, toNat_octet h]
  exact h

theorem utf8EncodeChar_of_ascii {c : Char} (h : c.toNat < 0x80) :
    String.utf8EncodeChar c = [UInt8.ofNat c.toNat] := by
  have hle : c.val.toNat ≤ 127 := Nat.le_of_lt_succ h
  rw [String.utf8EncodeChar, if_pos hle]
  rfl

theorem nextChar_octet {c : Char} (h : c.toNat < 0x80) (rest : List UInt8) :
    nextChar (UInt8.ofNat c.toNat :: rest) = some (some c, rest) := by
  rw [nextChar, if_pos (octet_lt h), toNat_octet h, Char.ofNat_toNat]

theorem decodeUtf8_encodeUtf8 {cs : List Char} (h : IsAscii cs) :
    decodeUtf8 (encodeUtf8 cs) = cs := by
  have hmarked : decodeMarked (encodeUtf8 cs) = cs.map some := by
    induction cs with
    | nil => rw [decodeMarked]; rfl
    | cons c cs ih =>
      obtain ⟨hc, hcs⟩ := List.forall_mem_cons.1 h
      rw [encodeUtf8, List.flatMap_cons, utf8EncodeChar_of_ascii hc, List.singleton_append,
        decodeMarked, nextChar_octet hc]
      exact congrArg (some c :: ·) (ih hcs)
  rw [decodeUtf8, hmarked, List.map_map]
  exact List.map_id cs

end Latency.Text

import Mathlib.Tactic.Common
import Latency.Json.Parser
import Latency.Json.Printer
import Latency.Proofs.Text.Ascii
/-!
# JSON text that is written and read

A value without doubles is read back from its compact text, with the members of its objects in their
order, and what stands behind the text is left (`Plain.readsBack`).  As a whole text it is read back
by `parse?` (`parse?_write`).
-/

namespace Latency.Json

/-! ## Strings -/

theorem unitOf?_hexDigits {n : Nat} (h : n < 0x10000) :
    unitOf? (Nat.digitChar (n / 4096 % 16)) (Nat.digitChar (n / 256 % 16))
      (Nat.digitChar (n / 16 % 16)) (Nat.digitChar (n % 16)) = some n := by
  have hdigit (k : Nat) : Text.hexValue? (Nat.digitChar (k % 16)) = some (k % 16) :=
    Text.hexValue?_digitChar _ (Nat.mod_lt _ (by omega))
  have hsum : (n / 4096 % 16 * 16 + n / 256 % 16) * 256 + (n / 16 % 16 * 16 + n % 16) = n := by
    omega
  simp only [unitOf?, hdigit]
  exact congrArg some hsum

theorem readChars_plain {c : Char} (rest : List Char) (hcontrol : 0x20 ≤ c.toNat)
    (hquote : c ≠ '"') (hslash : c ≠ '\\') :
    readChars none (c :: rest) = (readChars none rest).map fun r => (c :: r.1, r.2) := by
  have hallowed : ¬ (c.toNat < 0x20 ∨ c = '\\') := by
    simp [hslash, hcontrol]
  rw [readChars]
  · rw [if_neg hallowed]
    rfl
  all_goals simp [hquote, hslash]

theorem readChars_short {e c : Char} (rest : List Char) (h : shortEscape? e = some c) :
    readChars none ('\\' :: e :: rest) = (readChars none rest).map fun r => (c :: r.1, r.2) := by
  have hunit : e ≠ 'u' := by
    rintro rfl
    cases h
  rw [readChars]
  · rw [h]
    rfl
  · simp [hunit]

theorem readChars_unit {n : Nat} (rest : List Char) (hlt : n < 0x10000)
    (hsingle : isHighUnit n = false) :
    readChars none (unitEscape n ++ rest) =
      (readChars none rest).map fun r => (Text.charOfCode n :: r.1, r.2) := by
  rw [unitEscape, Text.hexDigits_four]
  simp only [List.cons_append, List.nil_append]
  rw [readChars, unitOf?_hexDigits hlt]
  simp only [hsingle, Bool.false_eq_true, if_false]

theorem readChars_pair {high low : Nat} (rest : List Char) (hhigh : isHighUnit high = true)
    (hlow : isLowUnit low = true) :
    readChars none (unitEscape high ++ (unitEscape low ++ rest)) =
      (readChars none rest).map fun r =>
        (Char.ofNat (0x10000 + (high - 0xd800) * 0x400 + (low - 0xdc00)) :: r.1, r.2) := by
  have hhighlt : high < 0x10000 := by
    simp only [isHighUnit, Bool.and_eq_true, decide_eq_true_eq] at hhigh
    omega
  have hlowlt : low < 0x10000 := by
    simp only [isLowUnit, Bool.and_eq_true, decide_eq_true_eq] at hlow
    omega
  rw [unitEscape, unitEscape, Text.hexDigits_four, Text.hexDigits_four]
  simp only [List.cons_append, List.nil_append]
  rw [readChars, unitOf?_hexDigits hhighlt]
  simp only [hhigh, if_true]
  rw [readChars, unitOf?_hexDigits hlowlt]
  simp only [hlow, if_true]

/-- The forms in which a character stands in an ASCII text. -/
inductive Escaped (c : Char) : List Char → Prop where
  | short {e : Char} : shortEscape? e = some c → Escaped c ['\\', e]
  | plain : 0x20 ≤ c.toNat → c.toNat < 0x7f → c ≠ '"' → c ≠ '\\' → Escaped c [c]
  | unit : c.toNat < 0x10000 → Escaped c (unitEscape c.toNat)
  | pair : 0x10000 ≤ c.toNat → Escaped c
      (unitEscape (0xd800 + (c.toNat - 0x10000) / 0x400) ++
        unitEscape (0xdc00 + (c.toNat - 0x10000) % 0x400))

theorem escaped_escapeChar (c : Char) : Escaped c (escapeChar true c) := by
  unfold escapeChar
  -- the signs with an escape of their own come first
  iterate 7
    split
    · next h => subst h; exact .short rfl
  simp only [Bool.true_eq_false, or_false]
  split
  · next hcontrol => exact .unit (by omega)
  · next hcontrol =>
    split
    · next hplain => exact .plain (by omega) hplain ‹_› ‹_›
    · split
      · next hbasic => exact .unit hbasic
      · next hastral => exact .pair (by omega)

theorem charOfCode_toNat (c : Char) : Text.charOfCode c.toNat = c := by
  rw [Text.charOfCode, if_pos (show c.toNat.isValidChar from c.valid), Char.ofNat_toNat]

theorem readChars_escaped {c : Char} {text : List Char} (h : Escaped c text) (rest : List Char) :
    readChars none (text ++ rest) = (readChars none rest).map fun r => (c :: r.1, r.2) := by
  -- no character is one half of a pair
  have hvalid : c.toNat < 0xd800 ∨ 0xdfff < c.toNat ∧ c.toNat < 0x110000 := c.valid
  cases h with
  | short hshort => exact readChars_short rest hshort
  | plain hcontrol _ hquote hslash => exact readChars_plain rest hcontrol hquote hslash
  | unit hbasic =>
    have hread := readChars_unit rest hbasic (by simp [isHighUnit]; omega)
    rwa [charOfCode_toNat] at hread
  | pair hastral =>
    have hcode : 0x10000 + (0xd800 + (c.toNat - 0x10000) / 0x400 - 0xd800) * 0x400 +
        (0xdc00 + (c.toNat - 0x10000) % 0x400 - 0xdc00) = c.toNat := by
      omega
    have hhigh : isHighUnit (0xd800 + (c.toNat - 0x10000) / 0x400) = true := by
      simp [isHighUnit]
      omega
    have hlow : isLowUnit (0xdc00 + (c.toNat - 0x10000) % 0x400) = true := by
      simp [isLowUnit]
      omega
    have hread := readChars_pair rest hhigh hlow
    rwa [hcode, Char.ofNat_toNat, ← List.append_assoc] at hread

theorem readChars_flatMap (cs rest : List Char) :
    readChars none (cs.flatMap (escapeChar true) ++ '"' :: rest) = some (cs, rest) := by
  induction cs with
  | nil => rfl
  | cons c cs ih =>
    rw [List.flatMap_cons, List.append_assoc, readChars_escaped (escaped_escapeChar c), ih]
    rfl

theorem writeString_append (s : String) (rest : List Char) :
    writeString true s ++ rest = '"' :: (s.toList.flatMap (escapeChar true) ++ '"' :: rest) := by
  simp [writeString]

theorem readString_flatMap (s : String) (rest : List Char) :
    readString (s.toList.flatMap (escapeChar true) ++ '"' :: rest) = some (s, rest) := by
  rw [readString, readChars_flatMap, Option.map_some, String.ofList_toList]

/-! ## Integers -/

def EndsNumber : List Char → Prop
  | [] => True
  | c :: _ => Text.isDigit c = false ∧ c ≠ '.' ∧ c ≠ 'e' ∧ c ≠ 'E'

theorem readWhole_toDigits (n : Nat) {rest : List Char} (h : EndsNumber rest) :
    readWhole (Nat.toDigits 10 n ++ rest) = some (Nat.toDigits 10 n, rest) := by
  have hdigits (c : Char) (hc : c ∈ Nat.toDigits 10 n) : Text.isDigit c = true :=
    Text.isDigit_of_mem_toDigits hc
  have hrest : rest.takeWhile Text.isDigit = [] ∧ rest.dropWhile Text.isDigit = rest := by
    cases rest with
    | nil => exact ⟨rfl, rfl⟩
    | cons c rest => simp [h.1]
  obtain ⟨c, ds, hds⟩ := List.exists_cons_of_ne_nil (Text.toDigits_ne_nil n)
  by_cases hzero : c = '0'
  · subst hzero
    obtain ⟨-, rfl⟩ := Text.eq_zero_of_toDigits_eq_cons hds
    rw [hds]
    rfl
  · have hother (tail : List Char) : Nat.toDigits 10 n ++ rest ≠ '0' :: tail := by
      intro htail
      rw [hds, List.cons_append] at htail
      exact hzero (List.cons.inj htail).1
    rw [readWhole]
    · rw [List.takeWhile_append_of_pos hdigits, List.dropWhile_append_of_pos hdigits, hrest.1,
        hrest.2, List.append_nil]
      simp [hds]
    · exact hother

theorem readFraction_of_ends {rest : List Char} (h : EndsNumber rest) :
    readFraction rest = (none, rest) := by
  cases rest with
  | nil => rfl
  | cons c rest =>
    rw [readFraction]
    intro tail htail
    exact h.2.1 (List.cons.inj htail).1

theorem readExponent_of_ends {rest : List Char} (h : EndsNumber rest) :
    readExponent rest = (none, rest) := by
  cases rest with
  | nil => rfl
  | cons c rest => rw [readExponent, if_neg (by simp [h.2.2])]

theorem readNumber_toDigits (negative : Bool) {n : Nat} {rest : List Char}
    (hdigits : (Nat.toDigits 10 n).length ≤ Text.mostDigits) (h : EndsNumber rest) :
    readNumber negative (Nat.toDigits 10 n ++ rest) =
      some (.int (if negative then -(n : Int) else n), rest) := by
  rw [readNumber, readWhole_toDigits n h]
  simp only [readFraction_of_ends h, readExponent_of_ends h, Nat.not_lt.2 hdigits, if_false,
    Text.natOfDigits_toDigits]

/-! ## Values -/

/-- A value without doubles. Its integers have no more digits than can be read, and no object of it
has a key twice. -/
inductive Plain : Json → Prop where
  | null : Plain .null
  | bool (b : Bool) : Plain (.bool b)
  | int {n : Int} : (Nat.toDigits 10 n.natAbs).length ≤ Text.mostDigits → Plain (.num (.int n))
  | str (s : String) : Plain (.str s)
  | arr {items : List Json} : (∀ x ∈ items, Plain x) → Plain (.arr items)
  | obj {members : List (String × Json)} : (members.map Prod.fst).Nodup →
      (∀ m ∈ members, Plain m.2) → Plain (.obj members)

/-- A text that begins a value: no blank and no closing bracket comes first. -/
def Opens (text : List Char) : Prop :=
  ∃ c tail, text = c :: tail ∧ isGap c = false ∧ c ≠ ']'

theorem Opens.skipGap {text : List Char} (h : Opens text) (rest : List Char) :
    skipGap (text ++ rest) = text ++ rest := by
  obtain ⟨c, tail, rfl, hgap, -⟩ := h
  rw [Json.skipGap, List.cons_append, List.dropWhile_cons_of_neg (by simp [hgap])]

theorem skipGap_comma (rest : List Char) : skipGap (',' :: rest) = ',' :: rest :=
  rfl

theorem skipGap_colon (rest : List Char) : skipGap (':' :: rest) = ':' :: rest :=
  rfl

theorem skipGap_writeString (s : String) (rest : List Char) :
    skipGap (writeString true s ++ rest) = writeString true s ++ rest :=
  rfl

theorem ne_of_isDigit {c d : Char} (h : Text.isDigit c = true) (hd : Text.isDigit d = false) :
    c ≠ d := by
  rintro rfl
  rw [h] at hd
  cases hd

theorem isGap_of_isDigit {c : Char} (h : Text.isDigit c = true) : isGap c = false := by
  refine Bool.eq_false_iff.2 fun hgap => ?_
  simp only [isGap, Bool.or_eq_true, beq_iff_eq] at hgap
  obtain ((rfl | rfl) | rfl) | rfl := hgap <;> cases h

theorem opens_writeInt (n : Int) : Opens (writeInt n) := by
  unfold writeInt
  split
  · exact ⟨'-', _, rfl, rfl, by decide⟩
  · obtain ⟨c, ds, hds, hdigit⟩ := Text.toDigits_eq_cons n.natAbs
    exact ⟨c, ds, hds, isGap_of_isDigit hdigit, ne_of_isDigit hdigit rfl⟩

theorem Plain.opens {j : Json} (h : Plain j) : Opens (write .compact j) := by
  cases h with
  | null => exact ⟨'n', _, rfl, rfl, by decide⟩
  | bool b => cases b <;> exact ⟨_, _, rfl, rfl, by decide⟩
  | int _ => exact opens_writeInt _
  | str s => exact ⟨'"', _, rfl, rfl, by decide⟩
  | @arr items _ => cases items <;> exact ⟨'[', _, rfl, rfl, by decide⟩
  | @obj members _ _ => cases members <;> exact ⟨'\x7b', _, rfl, rfl, by decide⟩

theorem put_of_notMem {key : String} (value : Json) {kept : List (String × Json)}
    (h : key ∉ kept.map Prod.fst) : put key value kept = kept ++ [(key, value)] := by
  induction kept with
  | nil => rfl
  | cons m kept ih =>
    obtain ⟨hfirst, hothers⟩ := List.ne_and_not_mem_of_not_mem_cons h
    rw [put, if_neg (Ne.symm hfirst), ih hothers, List.cons_append]

theorem foldl_put (members kept : List (String × Json))
    (h : ((kept ++ members).map Prod.fst).Nodup) :
    members.foldl (fun acc m => put m.1 m.2 acc) kept = kept ++ members := by
  induction members generalizing kept with
  | nil => simp
  | cons m members ih =>
    have hnew : m.1 ∉ kept.map Prod.fst := by
      rw [List.map_append, List.map_cons] at h
      intro hold
      exact (List.nodup_append.1 h).2.2 _ hold _ List.mem_cons_self rfl
    rw [List.foldl_cons, put_of_notMem m.2 hnew, ih _ (by simpa using h), List.append_assoc,
      List.singleton_append]

theorem ofMembers_of_nodup {members : List (String × Json)} (h : (members.map Prod.fst).Nodup) :
    ofMembers members = .obj members := by
  rw [ofMembers, foldl_put members [] h, List.nil_append]

theorem readValue_quote (fuel : Nat) (rest : List Char) :
    readValue (fuel + 1) ('"' :: rest) = (readString rest).map fun r => (.str r.1, r.2) := by
  rw [readValue]

theorem readValue_writeInt (fuel : Nat) {n : Int} {rest : List Char}
    (hdigits : (Nat.toDigits 10 n.natAbs).length ≤ Text.mostDigits) (h : EndsNumber rest) :
    readValue (fuel + 1) (writeInt n ++ rest) = some (.num (.int n), rest) := by
  -- no digit begins another value
  have hother (d : Char) (hd : Text.isDigit d = false) (tail : List Char) :
      Nat.toDigits 10 n.natAbs ++ rest ≠ d :: tail := by
    obtain ⟨c, ds, hds, hdigit⟩ := Text.toDigits_eq_cons n.natAbs
    intro htail
    rw [hds, List.cons_append] at htail
    exact ne_of_isDigit hdigit hd (List.cons.inj htail).1
  unfold writeInt
  split
  · next hnegative =>
    rw [List.cons_append, readValue]
    · rw [readNumber_toDigits true hdigits h, if_pos rfl, Option.map_some]
      rw [show -(n.natAbs : Int) = n by omega]
    · exact fun tail => hother 'I' rfl tail
  · rw [readValue]
    · rw [readNumber_toDigits false hdigits h, if_neg Bool.false_ne_true, Option.map_some]
      rw [show (n.natAbs : Int) = n by omega]
    · exact List.append_ne_nil_of_left_ne_nil (Text.toDigits_ne_nil _) _
    all_goals exact fun tail => hother _ rfl _

/-- What is written of a value begins one, and is read back whatever comes behind it. -/
structure ReadsBack (j : Json) : Prop where
  opens : Opens (write .compact j)
  back : ∀ (fuel : Nat) (rest : List Char), EndsNumber rest →
    2 * (write .compact j).length ≤ fuel →
      readValue fuel (write .compact j ++ rest) = some (j, rest)

theorem writeItems_cons (x : Json) (xs : List Json) :
    writeItems .compact (x :: xs) = ',' :: (write .compact x ++ writeItems .compact xs) :=
  rfl

theorem writeMembers_cons (k : String) (v : Json) (ms : List (String × Json)) :
    writeMembers .compact ((k, v) :: ms) =
      ',' :: (writeString true k ++ ':' :: (write .compact v ++ writeMembers .compact ms)) := by
  simp [writeMembers, Style.compact]

theorem write_arr_cons (x : Json) (xs : List Json) :
    write .compact (.arr (x :: xs)) = '[' :: (write .compact x ++ writeItems .compact xs) :=
  rfl

theorem write_obj_cons (k : String) (v : Json) (ms : List (String × Json)) :
    write .compact (.obj ((k, v) :: ms)) =
      '\x7b' :: (writeString true k ++ ':' :: (write .compact v ++ writeMembers .compact ms)) := by
  simp [write, Style.compact]

theorem endsNumber_writeItems (xs : List Json) (rest : List Char) :
    EndsNumber (writeItems .compact xs ++ rest) := by
  cases xs <;> exact ⟨rfl, by decide, by decide, by decide⟩

theorem endsNumber_writeMembers (ms : List (String × Json)) (rest : List Char) :
    EndsNumber (writeMembers .compact ms ++ rest) := by
  cases ms <;> exact ⟨rfl, by decide, by decide, by decide⟩

def itemsFrom (steps : Nat) (x : Json) (rest : List Char) : Option (List Json × List Char) :=
  match skipGap rest with
  | ']' :: rest => some ([x], rest)
  | ',' :: rest => (readItems steps (skipGap rest)).map fun r => (x :: r.1, r.2)
  | _ => none

theorem readItems_item {x : Json} (hx : ReadsBack x) {steps : Nat} {rest : List Char}
    (hends : EndsNumber rest) (hsteps : 2 * (write .compact x).length ≤ steps) :
    readItems (steps + 1) (write .compact x ++ rest) = itemsFrom steps x rest := by
  rw [readItems, hx.back steps rest hends hsteps]
  rfl

theorem readItems_write {x : Json} {xs : List Json} (h : ∀ y ∈ x :: xs, ReadsBack y) {fuel : Nat}
    (rest : List Char)
    (hfuel : 2 * ((write .compact x).length + (writeItems .compact xs).length) ≤ fuel) :
    readItems fuel (write .compact x ++ (writeItems .compact xs ++ rest)) =
      some (x :: xs, rest) := by
  induction xs generalizing x fuel with
  | nil =>
    simp only [writeItems, List.length_singleton] at hfuel
    obtain ⟨steps, rfl⟩ := Nat.exists_eq_succ_of_ne_zero (show fuel ≠ 0 by omega)
    rw [readItems_item (h x List.mem_cons_self) (endsNumber_writeItems [] rest) (by omega)]
    rfl
  | cons y ys ih =>
    rw [writeItems_cons, List.length_cons, List.length_append] at hfuel
    obtain ⟨steps, rfl⟩ := Nat.exists_eq_succ_of_ne_zero (show fuel ≠ 0 by omega)
    have hothers : ∀ z ∈ y :: ys, ReadsBack z := fun z hz => h z (List.mem_cons_of_mem x hz)
    have hopens := (hothers y List.mem_cons_self).opens
    have hitems := ih hothers (show _ ≤ steps by omega)
    rw [readItems_item (h x List.mem_cons_self) (endsNumber_writeItems (y :: ys) rest) (by omega),
      writeItems_cons, List.cons_append, List.append_assoc]
    simp only [itemsFrom, skipGap_comma, hopens.skipGap, hitems, Option.map_some]

def membersFrom (steps : Nat) (k : String) (v : Json) (rest : List Char) :
    Option (List (String × Json) × List Char) :=
  match skipGap rest with
  | '\x7d' :: rest => some ([(k, v)], rest)
  | ',' :: rest => (readMembers steps (skipGap rest)).map fun r => ((k, v) :: r.1, r.2)
  | _ => none

theorem readMembers_member (k : String) {v : Json} (hv : ReadsBack v) {steps : Nat}
    {rest : List Char} (hends : EndsNumber rest) (hsteps : 2 * (write .compact v).length ≤ steps) :
    readMembers (steps + 1) (writeString true k ++ ':' :: (write .compact v ++ rest)) =
      membersFrom steps k v rest := by
  rw [writeString_append, readMembers, readString_flatMap]
  simp only [skipGap_colon, hv.opens.skipGap, hv.back steps rest hends hsteps]
  rfl

theorem readMembers_write {k : String} {v : Json} {ms : List (String × Json)}
    (h : ∀ m ∈ (k, v) :: ms, ReadsBack m.2) {fuel : Nat} (rest : List Char)
    (hfuel : 2 * ((write .compact v).length + (writeMembers .compact ms).length) ≤ fuel) :
    readMembers fuel (writeString true k ++
        ':' :: (write .compact v ++ (writeMembers .compact ms ++ rest))) =
      some ((k, v) :: ms, rest) := by
  induction ms generalizing k v fuel with
  | nil =>
    simp only [writeMembers, List.length_singleton] at hfuel
    obtain ⟨steps, rfl⟩ := Nat.exists_eq_succ_of_ne_zero (show fuel ≠ 0 by omega)
    have hv : ReadsBack v := h (k, v) List.mem_cons_self
    rw [readMembers_member k hv (endsNumber_writeMembers [] rest) (by omega)]
    rfl
  | cons m ms ih =>
    obtain ⟨l, w⟩ := m
    rw [writeMembers_cons, List.length_cons, List.length_append, List.length_cons,
      List.length_append] at hfuel
    obtain ⟨steps, rfl⟩ := Nat.exists_eq_succ_of_ne_zero (show fuel ≠ 0 by omega)
    have hv : ReadsBack v := h (k, v) List.mem_cons_self
    have hmembers := ih (fun m hm => h m (List.mem_cons_of_mem _ hm)) (show _ ≤ steps by omega)
    rw [readMembers_member k hv (endsNumber_writeMembers ((l, w) :: ms) rest) (by omega),
      writeMembers_cons, List.cons_append, List.append_assoc, List.cons_append, List.append_assoc]
    simp only [membersFrom, skipGap_comma, skipGap_writeString, hmembers, Option.map_some]

theorem readValue_bracket (steps : Nat) {text : List Char} (h : Opens text) (rest : List Char) :
    readValue (steps + 1) ('[' :: (text ++ rest)) =
      (readItems steps (text ++ rest)).map fun r => (.arr r.1, r.2) := by
  rw [readValue, h.skipGap]
  obtain ⟨c, tail, rfl, -, hc⟩ := h
  split
  · next hclosed => exact absurd (List.cons.inj hclosed).1 hc
  · rfl

theorem readValue_brace (steps : Nat) (k : String) (rest : List Char) :
    readValue (steps + 1) ('\x7b' :: (writeString true k ++ rest)) =
      (readMembers steps (writeString true k ++ rest)).map fun r => (ofMembers r.1, r.2) := by
  rw [readValue, skipGap_writeString]
  rfl

theorem Plain.readsBack_of {j : Json} (h : Plain j)
    (hback : ∀ (steps : Nat) (rest : List Char), EndsNumber rest →
      2 * (write .compact j).length ≤ steps + 1 →
        readValue (steps + 1) (write .compact j ++ rest) = some (j, rest)) : ReadsBack j := by
  refine ⟨h.opens, fun fuel rest hends hfuel => ?_⟩
  obtain ⟨c, tail, htext, -⟩ := h.opens
  rw [htext, List.length_cons] at hfuel
  obtain ⟨steps, rfl⟩ := Nat.exists_eq_succ_of_ne_zero (show fuel ≠ 0 by omega)
  exact hback steps rest hends (by rw [htext]; exact hfuel)

theorem Plain.readsBack {j : Json} (h : Plain j) : ReadsBack j := by
  induction h with
  | null => exact Plain.null.readsBack_of fun steps rest _ _ => rfl
  | bool b =>
    refine (Plain.bool b).readsBack_of fun steps rest _ _ => ?_
    cases b <;> rfl
  | int hdigits =>
    exact (Plain.int hdigits).readsBack_of fun steps rest hends _ =>
      readValue_writeInt steps hdigits hends
  | str s =>
    refine (Plain.str s).readsBack_of fun steps rest _ _ => ?_
    change readValue (steps + 1) (writeString true s ++ rest) = _
    rw [writeString_append, readValue_quote, readString_flatMap, Option.map_some]
  | @arr items hitems ih =>
    refine (Plain.arr hitems).readsBack_of fun steps rest _ hsteps => ?_
    cases items with
    | nil => rfl
    | cons x xs =>
      have hopens := (ih x List.mem_cons_self).opens
      rw [write_arr_cons, List.length_cons, List.length_append] at hsteps
      rw [write_arr_cons, List.cons_append, List.append_assoc, readValue_bracket steps hopens,
        readItems_write ih rest (by omega), Option.map_some]
  | @obj members hkeys hmembers ih =>
    refine (Plain.obj hkeys hmembers).readsBack_of fun steps rest _ hsteps => ?_
    cases members with
    | nil => rfl
    | cons m ms =>
      obtain ⟨k, v⟩ := m
      rw [write_obj_cons, List.length_cons, List.length_append, List.length_cons,
        List.length_append] at hsteps
      rw [write_obj_cons, List.cons_append, List.append_assoc, List.cons_append, List.append_assoc,
        readValue_brace, readMembers_write ih rest (by omega), Option.map_some,
        ofMembers_of_nodup hkeys]

/-- **What is written of a value is the text of that value.** -/
theorem parse?_write {j : Json} (h : Plain j) : parse? (write .compact j) = some j := by
  have hread := h.readsBack.back (2 * (write .compact j).length + 2) [] trivial (by omega)
  have hgap := h.opens.skipGap []
  rw [List.append_nil] at hread hgap
  rw [parse?, hgap, hread]
  rfl

/-! ## ASCII -/

theorem Escaped.isAscii {c : Char} {text : List Char} (h : Escaped c text) : Text.IsAscii text := by
  have hunit (n : Nat) : Text.IsAscii (unitEscape n) :=
    .cons (by decide) (.cons (by decide) (Text.isAscii_hexDigits 4 n))
  cases h with
  | @short e hshort =>
    have he : e.toNat < 0x80 := by
      unfold shortEscape? at hshort
      split at hshort
      all_goals first | decide | cases hshort
    exact .cons (by decide) (.cons he (by decide))
  | plain _ hlt _ _ => exact .cons (by omega) (by decide)
  | unit _ => exact hunit _
  | pair _ => exact (hunit _).append (hunit _)

theorem isAscii_writeString (s : String) : Text.IsAscii (writeString true s) := by
  have hchars : Text.IsAscii (s.toList.flatMap (escapeChar true)) := by
    intro d hd
    obtain ⟨c, -, hc⟩ := List.mem_flatMap.1 hd
    exact (escaped_escapeChar c).isAscii d hc
  exact .cons (by decide) (hchars.append (by decide))

theorem isAscii_writeInt (n : Int) : Text.IsAscii (writeInt n) := by
  have hdigits : Text.IsAscii (Nat.toDigits 10 n.natAbs) :=
    Text.isAscii_digits fun c hc => Text.isDigit_of_mem_toDigits hc
  unfold writeInt
  split
  · exact .cons (by decide) hdigits
  · exact hdigits

theorem isAscii_writeItems {xs : List Json} (h : ∀ x ∈ xs, Text.IsAscii (write .compact x)) :
    Text.IsAscii (writeItems .compact xs) := by
  induction xs with
  | nil => exact .cons (by decide) (by decide)
  | cons x xs ih =>
    obtain ⟨hx, hxs⟩ := List.forall_mem_cons.1 h
    rw [writeItems_cons]
    exact .cons (by decide) (hx.append (ih hxs))

theorem isAscii_member (k : String) {value behind : List Char} (hvalue : Text.IsAscii value)
    (hbehind : Text.IsAscii behind) :
    Text.IsAscii (writeString true k ++ ':' :: (value ++ behind)) :=
  (isAscii_writeString k).append (.cons (by decide) (hvalue.append hbehind))

theorem isAscii_writeMembers {ms : List (String × Json)}
    (h : ∀ m ∈ ms, Text.IsAscii (write .compact m.2)) :
    Text.IsAscii (writeMembers .compact ms) := by
  induction ms with
  | nil => exact .cons (by decide) (by decide)
  | cons m ms ih =>
    obtain ⟨hm, hms⟩ := List.forall_mem_cons.1 h
    rw [writeMembers_cons]
    exact .cons (by decide) (isAscii_member m.1 hm (ih hms))

/-- What is written of a value is ASCII. -/
theorem Plain.isAscii {j : Json} (h : Plain j) : Text.IsAscii (write .compact j) := by
  induction h with
  | null => decide
  | bool b => cases b <;> decide
  | int _ => exact isAscii_writeInt _
  | str s => exact isAscii_writeString s
  | @arr items _ ih =>
    cases items with
    | nil => decide
    | cons x xs =>
      obtain ⟨hx, hxs⟩ := List.forall_mem_cons.1 ih
      rw [write_arr_cons]
      exact .cons (by decide) (hx.append (isAscii_writeItems hxs))
  | @obj members _ _ ih =>
    cases members with
    | nil => decide
    | cons m ms =>
      obtain ⟨hm, hms⟩ := List.forall_mem_cons.1 ih
      rw [write_obj_cons]
      exact .cons (by decide) (isAscii_member m.1 hm (isAscii_writeMembers hms))

end Latency.Json

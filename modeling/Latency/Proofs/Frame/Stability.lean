import Latency.Frame
/-!
# Reading does not depend on what follows

A message that was read off the front of a stream is read the same, and leaves the same octets and
more, when more octets follow.  So is a body beyond the limit, once the line in front of it is
complete.  Both rest on the line reader: a line that has its line feed is final.
-/

namespace Latency.Frame

/-! ## Lines -/

theorem takeLine_append_of_mem {bs : List UInt8} (more : List UInt8) (h : 10 ∈ bs) :
    takeLine (bs ++ more) = ((takeLine bs).1, (takeLine bs).2 ++ more) := by
  induction bs with
  | nil => simp at h
  | cons b rest ih =>
    simp only [List.cons_append, takeLine]
    by_cases hb : b = 10
    · simp [hb]
    · have hrest : 10 ∈ rest := by
        simpa [Ne.symm hb] using h
      simp [hb, ih hrest]

theorem mem_of_takeLine_ne_nil {bs : List UInt8} (h : (takeLine bs).2 ≠ []) : 10 ∈ bs := by
  induction bs with
  | nil => simp [takeLine] at h
  | cons b rest ih =>
    by_cases hb : b = 10
    · simp [hb]
    · simp only [takeLine, hb, ite_false] at h
      exact List.mem_cons_of_mem b (ih h)

theorem closesLine_of_ne_nil {bs rest : List UInt8} (h : rest ≠ []) :
    closesLine bs rest = true := by
  cases rest with
  | nil => exact absurd rfl h
  | cons => rfl

theorem closesLine_append (front : List UInt8) {bs : List UInt8} (rest : List UInt8)
    (h : bs ≠ []) : closesLine (front ++ bs) rest = closesLine bs rest := by
  have hlast : bs.getLast? = some (bs.getLast h) := List.getLast?_eq_some_getLast h
  simp only [closesLine, List.getLast?_append, hlast, Option.some_or]

theorem mem_of_closesLine_takeLine {bs : List UInt8} (h : closesLine bs (takeLine bs).2 = true) :
    10 ∈ bs := by
  by_cases hrest : (takeLine bs).2 = []
  · rw [hrest] at h
    simp only [closesLine, List.isEmpty_nil, Bool.not_true, Bool.false_or, beq_iff_eq] at h
    exact List.mem_of_getLast? h
  · exact mem_of_takeLine_ne_nil hrest

/-! ## Header blocks -/

theorem readHead_ne_nil {head found : Head} {bs rest : List UInt8}
    (h : readHead head bs = some (found, rest)) : bs ≠ [] := by
  rintro rfl
  simp [readHead] at h

theorem readHead_append {head found : Head} {bs rest : List UInt8} (more : List UInt8)
    (h : readHead head bs = some (found, rest)) (hclosed : closesLine bs rest = true) :
    readHead head (bs ++ more) = some (found, rest ++ more) := by
  -- what is left behind a line that does not close the block still has the closing line in it
  have later {b : UInt8} {tail : List UInt8} {next : Head}
      (hnext : readHead next (takeLine (b :: tail)).2 = some (found, rest))
      (hclosed : closesLine (b :: tail) rest = true) :
      10 ∈ b :: tail ∧ closesLine (takeLine (b :: tail)).2 rest = true := by
    have hne := readHead_ne_nil hnext
    refine ⟨mem_of_takeLine_ne_nil hne, ?_⟩
    rw [← closesLine_append (takeLine (b :: tail)).1 rest hne, takeLine_append]
    exact hclosed
  fun_induction readHead head bs with
  | case1 => simp at h
  | case2 head b tail line hblank hknown =>
    obtain ⟨rfl, rfl⟩ := Prod.mk.inj (Option.some.inj h)
    have hline := takeLine_append_of_mem more (mem_of_closesLine_takeLine hclosed)
    rw [List.cons_append] at hline ⊢
    rw [readHead, hline, if_pos hblank, if_pos hknown]
  | case3 head b tail line hblank hknown ih =>
    obtain ⟨hmem, hlater⟩ := later h hclosed
    have hline := takeLine_append_of_mem more hmem
    rw [List.cons_append] at hline ⊢
    rw [readHead, hline, if_pos hblank, if_neg hknown]
    exact ih h hlater
  | case4 head b tail line hblank ih =>
    obtain ⟨hmem, hlater⟩ := later h hclosed
    have hline := takeLine_append_of_mem more hmem
    rw [List.cons_append] at hline ⊢
    rw [readHead, hline, if_neg hblank]
    exact ih h hlater

theorem readHead_suffix {head found : Head} {bs rest : List UInt8}
    (h : readHead head bs = some (found, rest)) : ∃ front, bs = front ++ rest := by
  fun_induction readHead head bs with
  | case1 => simp at h
  | case2 head b tail line hblank hknown =>
    obtain ⟨-, rfl⟩ := Prod.mk.inj (Option.some.inj h)
    exact ⟨(takeLine (b :: tail)).1, (takeLine_append (b :: tail)).symm⟩
  | case3 head b tail line hblank hknown ih | case4 head b tail line hblank ih =>
    obtain ⟨front, hfront⟩ := ih h
    refine ⟨(takeLine (b :: tail)).1 ++ front, ?_⟩
    rw [List.append_assoc, ← hfront, takeLine_append]

/-! ## Messages -/

theorem read_of_readHead_none (limit : Option Nat) {bs : List UInt8} (h : readHead {} bs = none) :
    read limit bs = (.exhausted, []) := by
  rw [read]
  split
  · rfl
  · next found => rw [h] at found; cases found

theorem read_of_readHead_some (limit : Option Nat) {bs rest : List UInt8} {head : Head}
    (h : readHead {} bs = some (head, rest)) :
    read limit bs =
      match head.size? with
      | none => read limit rest
      | some size =>
        if exceeds limit size then (.oversized size, rest)
        else if rest.length < size then (.truncated size rest.length, [])
        else
          match parseBody (rest.take size) with
          | some message => (.value message, rest.drop size)
          | none => read limit (rest.drop size) := by
  rw [read]
  split
  · next found => rw [h] at found; cases found
  · next head' rest' found =>
    rw [h] at found
    obtain ⟨rfl, rfl⟩ := Prod.mk.inj (Option.some.inj found)
    rfl

theorem read_of_body (limit : Option Nat) {bs tail more : List UInt8} {head : Head} {size : Nat}
    (hhead : readHead {} bs = some (head, tail ++ more)) (hsize : head.size? = some size)
    (hexceeds : ¬ exceeds limit size = true) (hle : size ≤ tail.length) :
    read limit bs =
      match parseBody (tail.take size) with
      | some message => (.value message, tail.drop size ++ more)
      | none => read limit (tail.drop size ++ more) := by
  have hshort : ¬ (tail ++ more).length < size := by
    rw [List.length_append]
    omega
  rw [read_of_readHead_some limit hhead, hsize]
  simp only [hexceeds, hshort, List.take_append_of_le_length hle,
    List.drop_append_of_le_length hle]
  rfl

theorem read_nil (limit : Option Nat) : read limit [] = (.exhausted, []) :=
  read_of_readHead_none limit (by simp [readHead])

theorem pos_of_size? {head : Head} {size : Nat} (h : head.size? = some size) : 0 < size := by
  unfold Head.size? at h
  split at h
  · obtain rfl := Option.some.inj h
    exact Nat.succ_pos _
  · cases h

/-- Outcomes that more octets cannot change: a message, and a body beyond the limit whose header
block is complete. -/
def Outcome.Final (bs rest : List UInt8) : Outcome → Prop
  | .value _ => True
  | .oversized _ => closesLine bs rest = true
  | .exhausted | .truncated .. => False

/-- An outcome that is final for some octets is final for those at their end that decide it. -/
theorem Outcome.Final.of_append {front bs rest : List UInt8} {o : Outcome} (hbs : bs ≠ [])
    (h : o.Final (front ++ bs) rest) : o.Final bs rest := by
  cases o with
  | oversized size =>
    rw [Outcome.Final, closesLine_append front rest hbs] at h
    exact h
  | value | exhausted | truncated => exact h

theorem Outcome.Final.ne_nil {limit : Option Nat} {bs rest front : List UInt8} {o : Outcome}
    (h : read limit bs = (o, rest)) (hfinal : o.Final front rest) : bs ≠ [] := by
  rintro rfl
  rw [read_nil] at h
  obtain ⟨rfl, -⟩ := Prod.mk.inj h
  exact hfinal

/-- **Stability.**  A final outcome stays when more octets follow, and they are left unread. -/
theorem read_append {limit : Option Nat} {bs rest : List UInt8} {o : Outcome} (more : List UInt8)
    (h : read limit bs = (o, rest)) (hfinal : o.Final bs rest) :
    read limit (bs ++ more) = (o, rest ++ more) := by
  fun_induction read limit bs with
  | case1 bs hnone =>
    obtain ⟨rfl, -⟩ := Prod.mk.inj h
    exact hfinal.elim
  | case2 bs head tail hhead hsize ih =>
    have htail := Outcome.Final.ne_nil h hfinal
    have hmore := readHead_append more hhead (closesLine_of_ne_nil htail)
    obtain ⟨front, rfl⟩ := readHead_suffix hhead
    rw [read_of_readHead_some limit hmore, hsize]
    exact ih h (hfinal.of_append htail)
  | case3 bs head tail hhead size hsize hexceeds =>
    obtain ⟨rfl, rfl⟩ := Prod.mk.inj h
    rw [read_of_readHead_some limit (readHead_append more hhead hfinal), hsize]
    simp only [hexceeds, if_true]
  | case4 bs head tail hhead size hsize hexceeds hshort =>
    obtain ⟨rfl, -⟩ := Prod.mk.inj h
    exact hfinal.elim
  | case5 bs head tail hhead size hsize hexceeds hshort message hbody =>
    obtain ⟨rfl, rfl⟩ := Prod.mk.inj h
    have hpos := pos_of_size? hsize
    have htail : tail ≠ [] := by
      rintro rfl
      exact hshort hpos
    have hmore := readHead_append more hhead (closesLine_of_ne_nil htail)
    rw [read_of_body limit hmore hsize hexceeds (Nat.le_of_not_lt hshort), hbody]
  | case6 bs head tail hhead size hsize hexceeds hshort hbody ih =>
    have hdrop := Outcome.Final.ne_nil h hfinal
    have htail : tail ≠ [] := by
      rintro rfl
      exact hdrop List.drop_nil
    have hmore := readHead_append more hhead (closesLine_of_ne_nil htail)
    obtain ⟨front, rfl⟩ := readHead_suffix hhead
    have hfinal' : o.Final (tail.drop size) rest := by
      have hsplit : (front ++ tail.take size) ++ tail.drop size = front ++ tail := by
        rw [List.append_assoc, List.take_append_drop]
      exact Outcome.Final.of_append hdrop (hsplit ▸ hfinal)
    rw [read_of_body limit hmore hsize hexceeds (Nat.le_of_not_lt hshort), hbody]
    exact ih h hfinal'

/-! ## All messages -/

theorem messages_of_value {limit : Option Nat} {bs rest : List UInt8} {m : Json}
    (h : read limit bs = (.value m, rest)) (hm : m ≠ .null) :
    messages limit bs = m :: messages limit rest := by
  rw [messages, collect]
  split
  · next m' rest' hread =>
    obtain ⟨hvalue, rfl⟩ := Prod.mk.inj (h.symm.trans hread)
    obtain rfl := Outcome.value.inj hvalue
    split
    · exact absurd rfl hm
    · rfl
  · next hread => rw [h] at hread; cases hread
  · next hvalue _ => exact absurd h (hvalue m rest)

theorem messages_of_no_value {limit : Option Nat} {bs : List UInt8}
    (h : ∀ m rest, read limit bs = (.value m, rest) → m = .null) :
    messages limit bs = [] := by
  rw [messages, collect]
  split
  · next m rest hread =>
    obtain rfl := h m rest hread
    rfl
  · rfl
  · rfl

end Latency.Frame

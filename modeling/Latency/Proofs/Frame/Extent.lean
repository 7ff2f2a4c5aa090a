import Latency.Proofs.Frame.Portions
import Latency.Proofs.Frame.RoundTrip
/-!
# What a message takes of a stream

A message that was read takes the octets in front of those that are left, and is read the same from
them whatever stands behind them (`read_extent`).  So what was read of a stream stays when more of
it arrives (`messages_prefix_append`).  `read_stays_within` joins this with the reading in portions.
-/

namespace Latency.Frame

/-! ## The octets of a block -/

theorem isLine_takeLine {bs : List UInt8} (h : 10 ∈ bs) : IsLine (takeLine bs).1 := by
  obtain ⟨front, rest, rfl, hfront⟩ := List.eq_append_cons_of_mem h
  rw [takeLine_of_notMem hfront]
  exact isLine_append hfront

theorem readHead_extent {head found : Head} {bs rest : List UInt8}
    (h : readHead head bs = some (found, rest)) (hclosed : closesLine bs rest = true) :
    ∃ front, front ≠ [] ∧ bs = front ++ rest ∧
      ∀ more, readHead head (front ++ more) = some (found, more) := by
  -- a line with the rest of its block behind it
  have later {b : UInt8} {tail : List UInt8} {next : Head}
      (hnext : readHead next (takeLine (b :: tail)).2 = some (found, rest))
      (hclosed : closesLine (b :: tail) rest = true) :
      IsLine (takeLine (b :: tail)).1 ∧ closesLine (takeLine (b :: tail)).2 rest = true := by
    have hne := readHead_ne_nil hnext
    refine ⟨isLine_takeLine (mem_of_takeLine_ne_nil hne), ?_⟩
    rw [← closesLine_append (takeLine (b :: tail)).1 rest hne, takeLine_append]
    exact hclosed
  fun_induction readHead head bs with
  | case1 => cases h
  | case2 head b tail line hblank hknown =>
    obtain ⟨rfl, rfl⟩ := Prod.mk.inj (Option.some.inj h)
    have hline := isLine_takeLine (mem_of_closesLine_takeLine hclosed)
    refine ⟨line.1, hline.ne_nil, (takeLine_append (b :: tail)).symm, fun more => ?_⟩
    rw [readHead_blank hline hblank, if_pos hknown]
  | case3 head b tail line hblank hknown ih =>
    obtain ⟨hline, hlater⟩ := later h hclosed
    obtain ⟨front, -, hfront, hread⟩ := ih h hlater
    refine ⟨line.1 ++ front, by simp [hline.ne_nil, line], ?_, fun more => ?_⟩
    · rw [List.append_assoc, ← hfront, takeLine_append]
    · rw [List.append_assoc, readHead_blank hline hblank, if_neg hknown]
      exact hread more
  | case4 head b tail line hblank ih =>
    obtain ⟨hline, hlater⟩ := later h hclosed
    obtain ⟨front, -, hfront, hread⟩ := ih h hlater
    refine ⟨line.1 ++ front, by simp [hline.ne_nil, line], ?_, fun more => ?_⟩
    · rw [List.append_assoc, ← hfront, takeLine_append]
    · rw [List.append_assoc, readHead_header hline (by simpa using hblank)]
      exact hread more

/-! ## The octets of a message -/

theorem ne_nil_of_value {limit : Option Nat} {bs rest : List UInt8} {m : Json}
    (h : read limit bs = (.value m, rest)) : bs ≠ [] :=
  List.ne_nil_of_length_pos (Nat.lt_of_le_of_lt (Nat.zero_le _) (read_shorter h))

/-- **The extent of a message.**  It was read of the octets in front of those that are left, and of
no others. -/
theorem read_extent {limit : Option Nat} {bs rest : List UInt8} {m : Json}
    (h : read limit bs = (.value m, rest)) :
    ∃ front, front ≠ [] ∧ bs = front ++ rest ∧
      ∀ more, read limit (front ++ more) = (.value m, more) := by
  fun_induction read limit bs with
  | case1 | case3 | case4 => cases (Prod.mk.inj h).1
  | case2 bs head tail hhead hsize ih =>
    obtain ⟨block, hne, rfl, hblock⟩ :=
      readHead_extent hhead (closesLine_of_ne_nil (ne_nil_of_value h))
    obtain ⟨front, -, rfl, hread⟩ := ih h
    refine ⟨block ++ front, by simp [hne], (List.append_assoc ..).symm, fun more => ?_⟩
    rw [List.append_assoc, read_of_readHead_some limit (hblock _), hsize]
    exact hread more
  | case5 bs head tail hhead size hsize hexceeds hshort message hbody =>
    obtain ⟨hmessage, rfl⟩ := Prod.mk.inj h
    obtain rfl := Outcome.value.inj hmessage
    have hwhole : (tail.take size).length = size :=
      List.length_take_of_le (Nat.le_of_not_lt hshort)
    have htail : tail ≠ [] := by
      rintro rfl
      exact hshort (pos_of_size? hsize)
    obtain ⟨block, hne, rfl, hblock⟩ := readHead_extent hhead (closesLine_of_ne_nil htail)
    refine ⟨block ++ tail.take size, by simp [hne], ?_, fun more => ?_⟩
    · rw [List.append_assoc, List.take_append_drop]
    · rw [List.append_assoc, read_of_body limit (hblock _) hsize hexceeds hwhole.ge,
        List.take_of_length_le hwhole.le, hbody, List.drop_of_length_le hwhole.le]
      rfl
  | case6 bs head tail hhead size hsize hexceeds hshort hbody ih =>
    have hwhole : (tail.take size).length = size :=
      List.length_take_of_le (Nat.le_of_not_lt hshort)
    have htail : tail ≠ [] := by
      rintro rfl
      exact ne_nil_of_value h List.drop_nil
    obtain ⟨block, hne, rfl, hblock⟩ := readHead_extent hhead (closesLine_of_ne_nil htail)
    obtain ⟨front, -, hfront, hread⟩ := ih h
    refine ⟨block ++ (tail.take size ++ front), by simp [hne], ?_, fun more => ?_⟩
    · rw [List.append_assoc, List.append_assoc, ← hfront, List.take_append_drop]
    · rw [List.append_assoc, List.append_assoc,
        read_of_body limit (hblock _) hsize hexceeds hwhole.ge, List.take_of_length_le hwhole.le,
        hbody, List.drop_of_length_le hwhole.le]
      exact hread more

theorem rest_of_idle {limit : Option Nat} {bs rest : List UInt8} {o : Outcome}
    (h : read limit bs = (o, rest)) (hidle : o.idle = 1) : rest = [] := by
  obtain ⟨rfl, rfl⟩ := Prod.mk.inj h
  fun_induction read limit bs with
  | case1 | case4 => rfl
  | case2 _ _ _ _ _ ih | case6 _ _ _ _ _ _ _ _ _ ih => exact ih hidle rfl
  | case3 | case5 => cases hidle

/-- What was read of a stream stays when more of it arrives. -/
theorem messages_prefix_append (limit : Option Nat) (bs more : List UInt8) :
    messages limit bs <+: messages limit (bs ++ more) := by
  by_cases hvalue : ∃ m rest, read limit bs = (.value m, rest) ∧ m ≠ .null
  · obtain ⟨m, rest, hread, hm⟩ := hvalue
    have hshorter := read_shorter hread
    rw [messages_of_value hread hm, messages_of_value (read_append more hread trivial) hm,
      List.prefix_cons_inj]
    exact messages_prefix_append limit rest more
  · rw [messages_of_no_value fun m rest hread => by_contra fun hm => hvalue ⟨m, rest, hread, hm⟩]
    exact List.nil_prefix
termination_by bs.length

/-- **Reading stays within the message.**  A message that was read takes some octets in front of
those that are left, and is read of them alike whatever stands behind them; at the end of a stream,
be it within a body, nothing is left.  Neither this nor the messages of a whole stream depend on the
portions that a source hands back, and there are no more calls on it than it has octets, and one.
So the messages of a stream stay when more of it arrives. -/
theorem read_stays_within (limit : Option Nat) (bs : List UInt8) :
    (∀ m rest, read limit bs = (.value m, rest) →
      ∃ front, front ≠ [] ∧ bs = front ++ rest ∧
        ∀ more, read limit (front ++ more) = (.value m, more)) ∧
    (∀ rest, read limit bs = (.exhausted, rest) → rest = []) ∧
    (∀ expected got rest, read limit bs = (.truncated expected got, rest) → rest = []) ∧
    (∀ portions, ∃ calls ≤ bs.length + 1,
      Stream.read portions limit ⟨bs, 0⟩ = ((read limit bs).1, ⟨(read limit bs).2, calls⟩)) ∧
    (∀ portions, ∃ last : Stream, last.calls ≤ bs.length + 1 ∧
      Stream.collect portions limit ⟨bs, 0⟩ = (collect limit bs, last)) ∧
    ∀ more, messages limit bs <+: messages limit (bs ++ more) := by
  refine ⟨fun m rest h => read_extent h, fun rest h => rest_of_idle h rfl,
    fun expected got rest h => rest_of_idle h rfl, fun portions => ?_, fun portions => ?_,
    messages_prefix_append limit bs⟩
  · obtain ⟨calls, hread, hcalls⟩ := Stream.read_eq portions limit bs 0
    have hidle := Outcome.idle_le (read limit bs).1
    exact ⟨calls, by omega, hread⟩
  · obtain ⟨last, hcollect, hcalls⟩ := Stream.collect_eq portions limit bs 0
    exact ⟨last, by omega, hcollect⟩

def garbled : List UInt8 :=
  ascii "trace\r\n\r\nContent-Type: x\r\n\r\nContent-Length: 2\r\n\r\n\x7b]" ++ encode (.obj [])

theorem read_stays_within_garbled :
    read none (garbled ++ [67, 10]) = (.value (.obj []), [67, 10]) ∧
      (∀ more, read none (garbled ++ more) = (.value (.obj []), more)) ∧
      ∃ calls, Stream.read (.upTo 1 Nat.one_pos) none ⟨garbled ++ [67, 10], 0⟩ =
        (.value (.obj []), ⟨[67, 10], calls⟩) := by
  have hread : read none (garbled ++ [67, 10]) = (.value (.obj []), [67, 10]) := by
    have hunsized : readHead {} (garbled ++ [67, 10]) = some (⟨true, ""⟩,
        ascii "Content-Length: 2\r\n\r\n\x7b]" ++ (encode (.obj []) ++ [67, 10])) := by
      decide +kernel
    have hsized : readHead {}
        (ascii "Content-Length: 2\r\n\r\n\x7b]" ++ (encode (.obj []) ++ [67, 10])) =
          some (⟨true, "2"⟩, ascii "\x7b]" ++ (encode (.obj []) ++ [67, 10])) := by
      decide +kernel
    have hbody : parseBody ((ascii "\x7b]").take 2) = none :=
      Option.isNone_iff_eq_none.1 (by decide +kernel)
    calc read none (garbled ++ [67, 10])
        = read none
            (ascii "Content-Length: 2\r\n\r\n\x7b]" ++ (encode (.obj []) ++ [67, 10])) :=
          read_of_readHead_some none hunsized
      _ = read none (encode (.obj []) ++ [67, 10]) := by
          rw [read_of_body none hsized rfl (by decide) (by decide), hbody]
          rfl
      _ = (.value (.obj []), [67, 10]) :=
          read_framed (.obj (by decide) (by simp)) rfl [67, 10]
  obtain ⟨hvalue, -, -, hportions, -⟩ := read_stays_within none (garbled ++ [67, 10])
  obtain ⟨front, -, hfront, hsame⟩ := hvalue _ _ hread
  obtain rfl := List.append_cancel_right hfront
  obtain ⟨calls, -, hcalls⟩ := hportions (.upTo 1 Nat.one_pos)
  rw [hread] at hcalls
  exact ⟨hread, hsame, calls, hcalls⟩

end Latency.Frame

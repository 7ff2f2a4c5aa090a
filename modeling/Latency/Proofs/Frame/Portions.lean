import Latency.Proofs.Frame.Stability
/-!
# Reading in portions

A `Stream` hands back the octets it is asked for in portions of any size, and counts the calls that
are made on it.  The reader of a stream asks for a body again and again until it has all of it
(`Stream.readExact`).  Whatever the portions are, it makes of a stream what `Frame.read` makes of
its octets (`Stream.read_eq`), and it ends: every call but the last uses an octet up.
-/

namespace Latency.Frame

/-- How many octets a source hands back, by the number of the call and how many it is asked for: not
more than that, and at least one. -/
structure Portions where
  size : Nat → Nat → Nat
  pos (call asked : Nat) : 0 < asked → 0 < size call asked
  le (call asked : Nat) : size call asked ≤ asked

def Portions.upTo (most : Nat) (h : 0 < most) : Portions where
  size _ asked := min most asked
  pos _ _ hasked := Nat.lt_min.2 ⟨h, hasked⟩
  le _ asked := Nat.min_le_right most asked

/-- The octets that a source has left, and how many calls were made on it. -/
structure Stream where
  left : List UInt8
  calls : Nat := 0

/-- How many calls an outcome took that gave no octet: the end of a stream is found by one. -/
def Outcome.idle : Outcome → Nat
  | .exhausted | .truncated .. => 1
  | .value _ | .oversized _ => 0

theorem collect_of_read (limit : Option Nat) (bs : List UInt8) :
    collect limit bs =
      match read limit bs with
      | (.value .null, _) | (.exhausted, _) | (.truncated .., _) => ([], false)
      | (.value m, rest) => (m :: (collect limit rest).1, (collect limit rest).2)
      | (.oversized _, _) => ([], true) := by
  rw [collect]
  split
  · next m rest hread => cases m <;> simp only [hread]
  · next hread => rw [hread]
  · next hvalue hoversized =>
    cases hread : read limit bs with
    | mk outcome rest =>
    cases outcome with
    | value m => exact (hvalue m rest hread).elim
    | oversized size => exact (hoversized size rest hread).elim
    | exhausted | truncated => rfl

theorem Outcome.idle_le (o : Outcome) : o.idle ≤ 1 := by
  cases o <;> simp [idle]

namespace Stream

def readLine (s : Stream) : List UInt8 × Stream :=
  ((takeLine s.left).1, ⟨(takeLine s.left).2, s.calls + 1⟩)

theorem length_left_readLine {s : Stream} (h : s.readLine.1 ≠ []) :
    s.readLine.2.left.length < s.left.length := by
  obtain ⟨_ | ⟨b, rest⟩, calls⟩ := s
  · exact absurd rfl h
  · exact length_takeLine_cons b rest

def readSome (portions : Portions) (asked : Nat) (s : Stream) : List UInt8 × Stream :=
  let size := portions.size s.calls asked
  (s.left.take size, ⟨s.left.drop size, s.calls + 1⟩)

def readExact (portions : Portions) (wanted : Nat) (s : Stream) : List UInt8 × Stream :=
  if wanted = 0 then ([], s)
  else
    let (chunk, next) := s.readSome portions wanted
    if _h : chunk = [] then ([], next)
    else
      let (more, last) := readExact portions (wanted - chunk.length) next
      (chunk ++ more, last)
termination_by wanted
decreasing_by
  have := List.length_pos_iff.2 _h
  omega

def readHead (head : Head) (s : Stream) : Option Head × Stream :=
  if _h : s.readLine.1 = [] then (none, s.readLine.2)
  else if isBlankLine s.readLine.1 then
    if head.known then (some head, s.readLine.2) else readHead head s.readLine.2
  else readHead (head.add s.readLine.1) s.readLine.2
termination_by s.left.length
decreasing_by all_goals exact length_left_readLine _h

/-! ## What the parts of the reader do -/

theorem readSome_eq (portions : Portions) {asked : Nat} (hasked : 0 < asked) (s : Stream) :
    ∃ size, 0 < size ∧ size ≤ asked ∧
      s.readSome portions asked = (s.left.take size, ⟨s.left.drop size, s.calls + 1⟩) :=
  ⟨_, portions.pos s.calls asked hasked, portions.le s.calls asked, rfl⟩

theorem portion_append {size wanted : Nat} (hle : size ≤ wanted) (bs : List UInt8) :
    bs.take size ++ (bs.drop size).take (wanted - (bs.take size).length) = bs.take wanted ∧
      (bs.drop size).drop (wanted - (bs.take size).length) = bs.drop wanted := by
  by_cases hthere : size ≤ bs.length
  · rw [List.length_take_of_le hthere, ← List.take_add, List.drop_drop, Nat.add_sub_cancel' hle]
    exact ⟨rfl, rfl⟩
  · have hall : bs.length ≤ size := Nat.le_of_not_le hthere
    have hall' : bs.length ≤ wanted := Nat.le_trans hall hle
    simp [List.take_of_length_le hall, List.drop_of_length_le hall, List.take_of_length_le hall',
      List.drop_of_length_le hall']

/-- A body is handed over as far as it is there.  Each call gives an octet, but for one at the end
of a stream that is too short. -/
theorem readExact_eq (portions : Portions) (wanted : Nat) (bs : List UInt8) (calls : Nat) :
    ∃ later, readExact portions wanted ⟨bs, calls⟩ = (bs.take wanted, ⟨bs.drop wanted, later⟩) ∧
      later + (bs.drop wanted).length ≤
        calls + bs.length + if bs.length < wanted then 1 else 0 := by
  induction wanted using Nat.strongRecOn generalizing bs calls with
  | ind wanted ih =>
    by_cases hzero : wanted = 0
    · subst hzero
      exact ⟨calls, by rw [readExact]; rfl, by simp⟩
    obtain ⟨size, hpos, hle, hsome⟩ :=
      readSome_eq portions (Nat.pos_of_ne_zero hzero) ⟨bs, calls⟩
    rw [readExact, if_neg hzero, hsome]
    dsimp only
    by_cases hnil : bs = []
    · subst hnil
      exact ⟨calls + 1, by simp, by simp [Nat.pos_of_ne_zero hzero]⟩
    have hgiven : 0 < (bs.take size).length := by
      rw [List.length_take]
      exact Nat.lt_min.2 ⟨hpos, List.length_pos_iff.2 hnil⟩
    obtain ⟨later, hmore, hcalls⟩ :=
      ih (wanted - (bs.take size).length) (by omega) (bs.drop size) (calls + 1)
    obtain ⟨htake, hdrop⟩ := portion_append hle bs
    rw [hdrop] at hmore hcalls
    rw [dif_neg (List.length_pos_iff.1 hgiven), hmore, htake]
    refine ⟨later, rfl, ?_⟩
    rw [List.length_take] at hgiven hcalls
    rw [List.length_drop] at hcalls ⊢
    rw [List.length_drop] at hcalls
    split at hcalls <;> split <;> omega

theorem readHead_nil (head : Head) (calls : Nat) :
    readHead head ⟨[], calls⟩ = (none, ⟨[], calls + 1⟩) := by
  rw [readHead]
  rfl

theorem readHead_cons (head : Head) (b : UInt8) (tail : List UInt8) (calls : Nat) :
    readHead head ⟨b :: tail, calls⟩ =
      let line := takeLine (b :: tail)
      let next : Stream := ⟨line.2, calls + 1⟩
      if isBlankLine line.1 then
        if head.known then (some head, next) else readHead head next
      else readHead (head.add line.1) next := by
  have hline : (readLine ⟨b :: tail, calls⟩).1 ≠ [] := by
    simp only [readLine, takeLine]
    split <;> exact List.cons_ne_nil _ _
  rw [readHead, dif_neg hline]
  rfl

/-- A block is read as it is read of the octets.  Each call gives a line, but for one at the end of
the stream. -/
theorem readHead_eq (head : Head) (bs : List UInt8) (calls : Nat) :
    ∃ later, readHead head ⟨bs, calls⟩ =
        ((Frame.readHead head bs).map Prod.fst,
          ⟨((Frame.readHead head bs).map Prod.snd).getD [], later⟩) ∧
      later + (((Frame.readHead head bs).map Prod.snd).getD []).length ≤
        calls + bs.length + if (Frame.readHead head bs).isSome then 0 else 1 := by
  fun_induction Frame.readHead head bs generalizing calls with
  | case1 => exact ⟨calls + 1, readHead_nil _ calls, by simp⟩
  | case2 head b tail line hblank hknown =>
    have hshorter : line.2.length < (b :: tail).length := length_takeLine_cons b tail
    refine ⟨calls + 1, ?_, ?_⟩
    · rw [readHead_cons, if_pos hblank, if_pos hknown]
      rfl
    · simp only [Option.map_some, Option.getD_some, Option.isSome_some, if_true]
      omega
  | case3 head b tail line hblank hknown ih =>
    have hshorter : line.2.length < (b :: tail).length := length_takeLine_cons b tail
    obtain ⟨later, hlater, hcalls⟩ := ih (calls + 1)
    refine ⟨later, ?_, by omega⟩
    rw [readHead_cons, if_pos hblank, if_neg hknown]
    exact hlater
  | case4 head b tail line hblank ih =>
    have hshorter : line.2.length < (b :: tail).length := length_takeLine_cons b tail
    obtain ⟨later, hlater, hcalls⟩ := ih (calls + 1)
    refine ⟨later, ?_, by omega⟩
    rw [readHead_cons, if_neg hblank]
    exact hlater

theorem length_left_readHead {s next : Stream} {found : Head}
    (h : s.readHead {} = (some found, next)) : next.left.length < s.left.length := by
  obtain ⟨bs, calls⟩ := s
  obtain ⟨later, hlater, -⟩ := readHead_eq {} bs calls
  rw [hlater] at h
  obtain ⟨hfound, rfl⟩ := Prod.mk.inj h
  obtain ⟨⟨_, rest⟩, hhead, rfl⟩ := Option.map_eq_some_iff.1 hfound
  rw [hhead]
  exact readHead_shorter hhead

theorem length_left_readExact (portions : Portions) (wanted : Nat) (s : Stream) :
    (s.readExact portions wanted).2.left.length ≤ s.left.length := by
  obtain ⟨later, hlater, -⟩ := readExact_eq portions wanted s.left s.calls
  rw [hlater, List.length_drop]
  exact Nat.sub_le _ _

/-! ## Messages -/

def read (portions : Portions) (limit : Option Nat) (s : Stream) : Outcome × Stream :=
  match _h : s.readHead {} with
  | (none, next) => (.exhausted, next)
  | (some head, next) =>
    match head.size? with
    | none => read portions limit next
    | some size =>
      if exceeds limit size then (.oversized size, next)
      else
        let body := next.readExact portions size
        if body.1.length < size then (.truncated size body.1.length, body.2)
        else
          match parseBody body.1 with
          | some message => (.value message, body.2)
          | none => read portions limit body.2
termination_by s.left.length
decreasing_by
  · exact length_left_readHead _h
  · exact Nat.lt_of_le_of_lt (length_left_readExact ..) (length_left_readHead _h)

theorem read_of_readHead {portions : Portions} {limit : Option Nat} {s next : Stream} {head : Head}
    (h : s.readHead {} = (some head, next)) :
    s.read portions limit =
      match head.size? with
      | none => next.read portions limit
      | some size =>
        if exceeds limit size then (.oversized size, next)
        else
          let body := next.readExact portions size
          if body.1.length < size then (.truncated size body.1.length, body.2)
          else
            match parseBody body.1 with
            | some message => (.value message, body.2)
            | none => body.2.read portions limit := by
  rw [read]
  split
  · next hnone => rw [h] at hnone; cases (Prod.mk.inj hnone).1
  · next hsome =>
    rw [h] at hsome
    obtain ⟨hhead, rfl⟩ := Prod.mk.inj hsome
    obtain rfl := Option.some.inj hhead
    rfl

/-- **The portions do not matter.**  The reader makes of a stream what it makes of the octets. -/
theorem read_eq (portions : Portions) (limit : Option Nat) (bs : List UInt8) (calls : Nat) :
    ∃ later, read portions limit ⟨bs, calls⟩ =
        ((Frame.read limit bs).1, ⟨(Frame.read limit bs).2, later⟩) ∧
      later + (Frame.read limit bs).2.length ≤
        calls + bs.length + (Frame.read limit bs).1.idle := by
  -- how a block is read on the stream, when it is there
  have block {bs rest : List UInt8} {head : Head} (h : Frame.readHead {} bs = some (head, rest))
      (calls : Nat) : ∃ later, readHead {} ⟨bs, calls⟩ = (some head, ⟨rest, later⟩) ∧
        later + rest.length ≤ calls + bs.length := by
    obtain ⟨later, hlater, hcalls⟩ := readHead_eq {} bs calls
    rw [h] at hlater hcalls
    exact ⟨later, hlater, hcalls⟩
  fun_induction Frame.read limit bs generalizing calls with
  | case1 bs hnone =>
    obtain ⟨later, hlater, hcalls⟩ := readHead_eq {} bs calls
    rw [hnone] at hlater hcalls
    refine ⟨later, ?_, hcalls⟩
    rw [read]
    split
    · next hend =>
      rw [hlater] at hend
      obtain ⟨-, rfl⟩ := Prod.mk.inj hend
      rfl
    · next hend => rw [hlater] at hend; cases (Prod.mk.inj hend).1
  | case2 bs head tail hhead hsize ih =>
    obtain ⟨mid, hmid, hblock⟩ := block hhead calls
    obtain ⟨later, hlater, hcalls⟩ := ih mid
    refine ⟨later, ?_, by omega⟩
    rw [read_of_readHead hmid, hsize]
    exact hlater
  | case3 bs head tail hhead size hsize hexceeds =>
    obtain ⟨mid, hmid, hblock⟩ := block hhead calls
    refine ⟨mid, ?_, hblock⟩
    rw [read_of_readHead hmid, hsize]
    simp only [hexceeds, if_true]
  | case4 bs head tail hhead size hsize hexceeds hshort =>
    obtain ⟨mid, hmid, hblock⟩ := block hhead calls
    obtain ⟨later, hlater, hcalls⟩ := readExact_eq portions size tail mid
    have htail : tail.length ≤ size := Nat.le_of_lt hshort
    rw [List.take_of_length_le htail, List.drop_of_length_le htail] at hlater
    rw [List.drop_of_length_le htail, if_pos hshort] at hcalls
    refine ⟨later, ?_, by simp only [Outcome.idle]; omega⟩
    rw [read_of_readHead hmid, hsize]
    simp only [hexceeds, Bool.false_eq_true, if_false, hlater, hshort, if_true]
  | case5 bs head tail hhead size hsize hexceeds hshort message hbody =>
    obtain ⟨mid, hmid, hblock⟩ := block hhead calls
    obtain ⟨later, hlater, hcalls⟩ := readExact_eq portions size tail mid
    have hwhole : (tail.take size).length = size :=
      List.length_take_of_le (Nat.le_of_not_lt hshort)
    rw [if_neg hshort] at hcalls
    refine ⟨later, ?_, by simp only [Outcome.idle]; omega⟩
    rw [read_of_readHead hmid, hsize]
    simp only [hexceeds, Bool.false_eq_true, if_false, hlater, hwhole, Nat.lt_irrefl, hbody]
  | case6 bs head tail hhead size hsize hexceeds hshort hbody ih =>
    obtain ⟨mid, hmid, hblock⟩ := block hhead calls
    obtain ⟨after, hafter, hskipped⟩ := readExact_eq portions size tail mid
    have hwhole : (tail.take size).length = size :=
      List.length_take_of_le (Nat.le_of_not_lt hshort)
    rw [if_neg hshort] at hskipped
    obtain ⟨later, hlater, hcalls⟩ := ih after
    refine ⟨later, ?_, by omega⟩
    rw [read_of_readHead hmid, hsize]
    simp only [hexceeds, Bool.false_eq_true, if_false, hafter, hwhole, Nat.lt_irrefl, hbody]
    exact hlater

theorem length_left_read {portions : Portions} {limit : Option Nat} {s next : Stream} {m : Json}
    (h : s.read portions limit = (.value m, next)) : next.left.length < s.left.length := by
  obtain ⟨bs, calls⟩ := s
  obtain ⟨later, hlater, -⟩ := read_eq portions limit bs calls
  rw [hlater] at h
  obtain ⟨hvalue, rfl⟩ := Prod.mk.inj h
  exact read_shorter (Prod.ext hvalue rfl)

def collect (portions : Portions) (limit : Option Nat) (s : Stream) : (List Json × Bool) × Stream :=
  match _h : s.read portions limit with
  | (.value message, next) =>
    match message with
    | .null => (([], false), next)
    | message =>
      let rest := collect portions limit next
      ((message :: rest.1.1, rest.1.2), rest.2)
  | (.oversized _, next) => (([], true), next)
  | (_, next) => (([], false), next)
termination_by s.left.length
decreasing_by exact length_left_read _h

theorem collect_of_read (portions : Portions) (limit : Option Nat) (s : Stream) :
    s.collect portions limit =
      match s.read portions limit with
      | (.value .null, next) | (.exhausted, next) | (.truncated .., next) => (([], false), next)
      | (.value m, next) =>
        let rest := next.collect portions limit
        ((m :: rest.1.1, rest.1.2), rest.2)
      | (.oversized _, next) => (([], true), next) := by
  rw [collect]
  split
  · next m next hread => cases m <;> simp only [hread]
  · next hread => rw [hread]
  · next outcome next hvalue hoversized hread =>
    rw [hread]
    cases outcome with
    | value m => exact (hvalue m rfl).elim
    | oversized size => exact (hoversized size rfl).elim
    | exhausted | truncated => rfl

/-- All the messages are the same too, and to collect them takes no more calls than there are
octets, and one. -/
theorem collect_eq (portions : Portions) (limit : Option Nat) (bs : List UInt8) (calls : Nat) :
    ∃ last, collect portions limit ⟨bs, calls⟩ = (Frame.collect limit bs, last) ∧
      last.calls + last.left.length ≤ calls + bs.length + 1 := by
  obtain ⟨later, hlater, hcalls⟩ := read_eq portions limit bs calls
  rw [collect_of_read, Frame.collect_of_read, hlater]
  cases hread : Frame.read limit bs with
  | mk outcome rest =>
  rw [hread] at hcalls
  cases outcome with
  | exhausted | truncated => exact ⟨⟨rest, later⟩, rfl, hcalls⟩
  | oversized size => exact ⟨⟨rest, later⟩, rfl, Nat.le_succ_of_le hcalls⟩
  | value m =>
    have hshorter := read_shorter hread
    obtain ⟨last, hlast, hrest⟩ := collect_eq portions limit rest later
    cases m with
    | null => exact ⟨⟨rest, later⟩, rfl, Nat.le_succ_of_le hcalls⟩
    | bool | num | str | arr | obj =>
      refine ⟨last, ?_, Nat.le_trans hrest (Nat.succ_le_succ hcalls)⟩
      dsimp only
      rw [hlast]
termination_by bs.length

end Stream

end Latency.Frame

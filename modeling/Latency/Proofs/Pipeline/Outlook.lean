import Latency.Pipeline
import Latency.Proofs.Frame.Stability
/-!
# What the consumer is still to get

`items` are the items that octets decode to, whatever the queue does with them.  `outlook` is the
whole future of a pipeline: what is queued, what is in hand and what the octets decode to, those
that are still to arrive included.  No step of the reader changes it, and the consumer takes its
first item (`advance_outlook`, `take?_outlook`).
-/

namespace Latency.Pipeline

/-! ## Items of octets -/

theorem decode?_rest_lt {limit : Option Nat} {ended : Bool} {bs rest : List UInt8}
    {item : Option Item} (h : decode? limit ended bs = some (item, rest))
    (hend : ¬ item.any Item.isEnd = true) : rest.length < bs.length := by
  rcases decode?_length h with hlt | ⟨rfl, -⟩
  · exact hlt
  · exact absurd rfl hend

/-- All the items that octets decode to; `ended` tells that no more octets come. -/
def items (limit : Option Nat) (ended : Bool) (bs : List UInt8) : List Item :=
  match _hdecode : decode? limit ended bs with
  | none => []
  | some (item, rest) =>
    item.toList ++ if _hend : item.any Item.isEnd then [] else items limit ended rest
termination_by bs.length
decreasing_by exact decode?_rest_lt _hdecode _hend

theorem items_of_none {limit : Option Nat} {ended : Bool} {bs : List UInt8}
    (h : decode? limit ended bs = none) : items limit ended bs = [] := by
  rw [items]
  split
  · rfl
  · next hdecode => rw [h] at hdecode; cases hdecode

theorem items_of_some {limit : Option Nat} {ended : Bool} {bs rest : List UInt8}
    {item : Option Item} (h : decode? limit ended bs = some (item, rest)) :
    items limit ended bs =
      item.toList ++ if item.any Item.isEnd then [] else items limit ended rest := by
  rw [items]
  split
  · next hdecode => rw [h] at hdecode; cases hdecode
  · next hdecode =>
    rw [h] at hdecode
    obtain ⟨rfl, rfl⟩ := Prod.mk.inj (Option.some.inj hdecode)
    split <;> rfl

/-- What was decoded while more octets could come is decoded the same when they have come. -/
theorem decode?_append {limit : Option Nat} {bs rest : List UInt8} {item : Option Item}
    (ended : Bool) (more : List UInt8) (h : decode? limit false bs = some (item, rest)) :
    decode? limit ended (bs ++ more) = some (item, rest ++ more) := by
  unfold decode? at h
  split at h
  · next m left hread =>
    obtain ⟨rfl, rfl⟩ := Prod.mk.inj (Option.some.inj h)
    rw [decode?, Frame.read_append more hread trivial]
  · next size left hread =>
    split at h
    · next hclosed =>
      obtain ⟨rfl, rfl⟩ := Prod.mk.inj (Option.some.inj h)
      rw [Bool.false_or] at hclosed
      have hmore : Frame.closesLine (bs ++ more) (left ++ more) = true := by
        by_cases hleft : left ++ more = []
        · obtain ⟨rfl, rfl⟩ := List.append_eq_nil_iff.1 hleft
          simpa using hclosed
        · exact Frame.closesLine_of_ne_nil hleft
      rw [decode?, Frame.read_append more hread hclosed]
      simp only [hmore, Bool.or_true, if_true]
    · cases h
  · cases h
  · cases h

theorem decode?_of_value {limit : Option Nat} {bs rest : List UInt8} {m : Json} (ended : Bool)
    (h : Frame.read limit bs = (.value m, rest)) :
    decode? limit ended bs = some (Item.ofBody? m, rest) := by
  rw [decode?, h]

theorem decode?_of_no_value {limit : Option Nat} {bs : List UInt8}
    (h : ∀ m rest, Frame.read limit bs ≠ (.value m, rest)) :
    decode? limit true bs = some (some .ended, bs) := by
  unfold decode?
  split
  · next m rest hread => exact absurd hread (h m rest)
  · rfl
  · rfl
  · rfl

/-- The items of a complete stream: its messages that are objects, and then the end. -/
theorem items_eq_messages (limit : Option Nat) (bs : List UInt8) :
    items limit true bs =
      ((Frame.messages limit bs).filter Json.isObject).map Item.message ++ [.ended] := by
  by_cases hvalue : ∃ m rest, Frame.read limit bs = (.value m, rest)
  · obtain ⟨m, rest, hread⟩ := hvalue
    have hlt := Frame.read_shorter hread
    rw [items_of_some (decode?_of_value true hread)]
    cases m with
    | null =>
      have hnone : Frame.messages limit bs = [] := by
        apply Frame.messages_of_no_value
        intro m' rest' hread'
        rw [hread] at hread'
        exact (Frame.Outcome.value.inj (Prod.mk.inj hread').1).symm
      rw [hnone]
      rfl
    | obj members =>
      rw [Frame.messages_of_value hread (by simp), List.filter_cons_of_pos rfl, List.map_cons,
        List.cons_append, ← items_eq_messages limit rest]
      rfl
    | bool | num | str | arr =>
      rw [Frame.messages_of_value hread (by simp), List.filter_cons_of_neg (by simp [Json.isObject]),
        ← items_eq_messages limit rest]
      rfl
  · have hnone : ∀ m rest, Frame.read limit bs ≠ (.value m, rest) :=
      fun m rest hread => hvalue ⟨m, rest, hread⟩
    rw [items_of_some (decode?_of_no_value hnone),
      Frame.messages_of_no_value fun m rest hread => absurd hread (hnone m rest)]
    rfl
termination_by bs.length

/-! ## The outlook of a pipeline -/

/-- All that the consumer is still to get when the octets `more` arrive; `ended` tells that the
source ends behind them. -/
def outlook (p : Pipeline) (more : List UInt8) (ended : Bool) : List Item :=
  if p.closed then p.queue
  else
    p.queue ++ p.hand.toList ++
      if p.readerDone then [] else items p.limit ended (p.buffer ++ more)

def upcoming (p : Pipeline) : List Item :=
  p.outlook [] p.sourceEnded

/-- What can still come to a source: nothing once it has ended. -/
def Allows (p : Pipeline) (more : List UInt8) (ended : Bool) : Prop :=
  p.sourceEnded = true → more = [] ∧ ended = true

/-- What stays the same in a pipeline while the reader works on it. -/
structure SameSource (p q : Pipeline) : Prop where
  sourceEnded : q.sourceEnded = p.sourceEnded
  closed : q.closed = p.closed
  capacity : q.capacity = p.capacity
  limit : q.limit = p.limit

theorem SameSource.refl (p : Pipeline) : SameSource p p := ⟨rfl, rfl, rfl, rfl⟩

theorem SameSource.trans {p q r : Pipeline} (h : SameSource p q) (h' : SameSource q r) :
    SameSource p r :=
  ⟨h'.1.trans h.1, h'.2.trans h.2, h'.3.trans h.3, h'.4.trans h.4⟩

theorem advance_sameSource {p q : Pipeline} {m : Option Json} (h : p.advance = some (q, m)) :
    SameSource p q := by
  obtain ⟨-, ⟨item, -, -, rfl⟩ | ⟨-, -, item, rest, -, rfl⟩⟩ := advance_cases h
  · exact ⟨rfl, rfl, rfl, rfl⟩
  · exact ⟨rfl, rfl, rfl, rfl⟩

theorem advance_outlook {p q : Pipeline} {m : Option Json} {more : List UInt8} {ended : Bool}
    (h : p.advance = some (q, m)) (hok : p.Allows more ended) :
    q.outlook more ended = p.outlook more ended := by
  obtain ⟨hclosed, ⟨item, hhand, -, rfl⟩ | ⟨hhand, hdone, item, rest, hdecode, rfl⟩⟩ :=
    advance_cases h
  · simp [outlook, hclosed, hhand]
  · have hmore : decode? p.limit ended (p.buffer ++ more) = some (item, rest ++ more) := by
      cases hsource : p.sourceEnded with
      | false => exact decode?_append ended more (hsource ▸ hdecode)
      | true =>
        obtain ⟨rfl, rfl⟩ := hok hsource
        simpa [hsource] using hdecode
    simp [outlook, hclosed, hhand, hdone, items_of_some hmore]

theorem settle_sameSource (p : Pipeline) : SameSource p p.settle.1 := by
  fun_induction settle p with
  | case1 p => exact SameSource.refl p
  | case2 p q m h ih => exact (advance_sameSource h).trans ih

theorem settle_outlook {p : Pipeline} {more : List UInt8} {ended : Bool}
    (hok : p.Allows more ended) : p.settle.1.outlook more ended = p.outlook more ended := by
  fun_induction settle p with
  | case1 p => rfl
  | case2 p q m h ih =>
    have hq : q.Allows more ended := fun hsource => hok ((advance_sameSource h).1 ▸ hsource)
    exact (ih hq).trans (advance_outlook h hok)

theorem settle_advance (p : Pipeline) : p.settle.1.advance = none := by
  fun_induction settle p with
  | case1 p h => exact h
  | case2 p q m h ih => exact ih

theorem feed_outlook (p : Pipeline) (bs more : List UInt8) (ended : Bool) :
    (p.feed bs).outlook more ended = p.outlook (bs ++ more) ended := by
  simp [outlook, feed]

theorem endSource_outlook (p : Pipeline) (more : List UInt8) (ended : Bool) :
    p.endSource.outlook more ended = p.outlook more ended := rfl

theorem take?_outlook {p q : Pipeline} {item : Item} (h : p.take? = some (item, q))
    (more : List UInt8) (ended : Bool) : p.outlook more ended = item :: q.outlook more ended := by
  unfold take? at h
  split at h
  · cases h
  · next first rest hqueue =>
    obtain ⟨rfl, rfl⟩ := Prod.mk.inj (Option.some.inj h)
    by_cases hclosed : p.closed = true
    · simp [outlook, hqueue, hclosed]
    · simp [outlook, hqueue, hclosed]

theorem take?_sameSource {p q : Pipeline} {item : Item} (h : p.take? = some (item, q)) :
    SameSource p q := by
  unfold take? at h
  split at h
  · cases h
  · obtain ⟨-, rfl⟩ := Prod.mk.inj (Option.some.inj h)
    exact ⟨rfl, rfl, rfl, rfl⟩

theorem take?_length {p q : Pipeline} {item : Item} (h : p.take? = some (item, q)) :
    q.queue.length ≤ p.queue.length := by
  unfold take? at h
  split at h
  · cases h
  · next first rest hqueue =>
    obtain ⟨-, rfl⟩ := Prod.mk.inj (Option.some.inj h)
    rw [hqueue]
    exact Nat.le_succ _

/-! ## A reader at rest -/

theorem idle_cases {p : Pipeline} (hidle : p.advance = none) (hqueue : p.queue = []) :
    p.closed = true ∨
      p.hand = none ∧ (p.readerDone = true ∨ decode? p.limit p.sourceEnded p.buffer = none) := by
  unfold advance at hidle
  split at hidle
  · next hclosed => exact .inl hclosed
  · right
    split at hidle
    · next item hhand =>
      split at hidle
      · cases hidle
      · next hroom =>
        rcases Nat.eq_zero_or_pos p.capacity with hcap | hcap <;>
          simp [hasRoom, hqueue, hcap] at hroom
    · next hhand =>
      refine ⟨hhand, ?_⟩
      split at hidle
      · next hdone => exact .inl hdone
      · split at hidle
        · next hdecode => exact .inr hdecode
        · cases hidle

theorem upcoming_of_idle {p : Pipeline} (hidle : p.advance = none) (hqueue : p.queue = []) :
    p.upcoming = [] := by
  rcases idle_cases hidle hqueue with hclosed | ⟨hhand, hdone | hdecode⟩
  · simp [upcoming, outlook, hclosed, hqueue]
  · simp [upcoming, outlook, hhand, hdone, hqueue]
  · simp [upcoming, outlook, hhand, hqueue, items_of_none hdecode]

/-- Octets behind the end of the source change nothing once the reader is at rest. -/
theorem outlook_of_idle {p : Pipeline} (hidle : p.advance = none) (hqueue : p.queue = [])
    (hsource : p.sourceEnded = true) (more : List UInt8) (ended : Bool) :
    p.outlook more ended = [] := by
  rcases idle_cases hidle hqueue with hclosed | ⟨hhand, hdone | hdecode⟩
  · simp [outlook, hclosed, hqueue]
  · simp [outlook, hhand, hdone, hqueue]
  · rw [hsource] at hdecode
    unfold decode? at hdecode
    split at hdecode <;> simp at hdecode

end Latency.Pipeline

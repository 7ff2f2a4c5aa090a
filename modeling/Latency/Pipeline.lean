import Latency.Frame
/-!
# The reader and its queue

A reader decodes the octets that have arrived and hands each message over through a bounded queue.
It holds at most one item for which the queue has no room. The end of the stream is an item of its
own and the last one; a body that there is no room for ends the stream as soon as the line before it
is complete. `decode?` is what the reader makes of its octets, `advance` one step of the reader,
`settle` all steps it can take, `take?` one step of the consumer.
-/

namespace Latency

inductive Item where
  | message (m : Json)
  | ended

namespace Item

/-- What a body is to the consumer: an object is a message, `null` ends the stream like the end of
the octets does, and anything else is dropped. -/
def ofBody? : Json → Option Item
  | .null => some .ended
  | .obj members => some (.message (.obj members))
  | _ => none

def isEnd : Item → Bool
  | .message _ => false
  | .ended => true

def message? : Item → Option Json
  | .message m => some m
  | .ended => none

end Item

/-- How long a body may be before there is no room for it: 64 GiB. -/
def bodyLimit : Nat := Nat.pow 2 36

structure Pipeline where
  limit : Option Nat := some bodyLimit
  /-- How many items the queue holds; 0 sets no limit. -/
  capacity : Nat := 1024
  /-- Octets that have arrived and are not decoded. -/
  buffer : List UInt8 := []
  sourceEnded : Bool := false
  /-- The item that waits for room in the queue. -/
  hand : Option Item := none
  queue : List Item := []
  /-- The reader has issued the end and decodes no more. -/
  readerDone : Bool := false
  /-- The consumer has closed the session; nothing is handed over any more. -/
  closed : Bool := false

namespace Pipeline

def hasRoom (p : Pipeline) : Bool :=
  p.capacity == 0 || decide (p.queue.length < p.capacity)

/-- What the reader decodes next, and the octets that are left: an item, or nothing for a body that
is dropped; `none` while it has to wait for more octets. -/
def decode? (limit : Option Nat) (ended : Bool) (bs : List UInt8) :
    Option (Option Item × List UInt8) :=
  match Frame.read limit bs with
  | (.value m, rest) => some (Item.ofBody? m, rest)
  | (.oversized _, rest) =>
    if ended || Frame.closesLine bs rest then some (some .ended, bs) else none
  | (.exhausted, _) | (.truncated .., _) => if ended then some (some .ended, bs) else none

theorem decode?_length {limit : Option Nat} {ended : Bool} {bs rest : List UInt8}
    {item : Option Item} (h : decode? limit ended bs = some (item, rest)) :
    rest.length < bs.length ∨ item = some .ended ∧ rest.length ≤ bs.length := by
  unfold decode? at h
  split at h
  case h_1 found =>
    left
    simp only [Option.some.injEq, Prod.mk.injEq] at h
    exact h.2 ▸ Frame.read_shorter found
  all_goals
    right
    split at h <;> simp_all

/-- One step of the reader, and the message it decoded: the item in hand goes into the queue if it
has room; with empty hands the next item is decoded. -/
def advance (p : Pipeline) : Option (Pipeline × Option Json) :=
  if p.closed then none
  else
    match p.hand with
    | some item =>
      if p.hasRoom then some ({ p with hand := none, queue := p.queue ++ [item] }, none) else none
    | none =>
      if p.readerDone then none
      else
        match decode? p.limit p.sourceEnded p.buffer with
        | none => none
        | some (item, rest) =>
          some ({ p with buffer := rest, hand := item, readerDone := item.any Item.isEnd },
            item.bind Item.message?)

/-- What a step of the reader can be. -/
theorem advance_cases {p q : Pipeline} {m : Option Json} (h : p.advance = some (q, m)) :
    p.closed = false ∧
      ((∃ item, p.hand = some item ∧ p.hasRoom = true ∧
          q = { p with hand := none, queue := p.queue ++ [item] }) ∨
        p.hand = none ∧ p.readerDone = false ∧
          ∃ item rest, decode? p.limit p.sourceEnded p.buffer = some (item, rest) ∧
            q = { p with buffer := rest, hand := item, readerDone := item.any Item.isEnd }) := by
  unfold advance at h
  split at h
  · cases h
  · next hclosed =>
    refine ⟨by simpa using hclosed, ?_⟩
    split at h
    · next item hhand =>
      split at h
      · next hroom => exact .inl ⟨item, hhand, hroom, (Prod.mk.inj (Option.some.inj h)).1.symm⟩
      · cases h
    · next hhand =>
      split at h
      · cases h
      · next hdone =>
        split at h
        · cases h
        · next item rest hdecode =>
          exact .inr ⟨hhand, by simpa using hdone, item, rest, hdecode,
            (Prod.mk.inj (Option.some.inj h)).1.symm⟩

/-- A bound on the items that the consumer can still take. -/
def supply (p : Pipeline) : Nat :=
  p.queue.length + p.hand.toList.length + p.buffer.length + (!p.readerDone).toNat

def work (p : Pipeline) : Nat :=
  p.hand.toList.length + 2 * p.buffer.length + 2 * (!p.readerDone).toNat

theorem advance_work {p q : Pipeline} {m : Option Json} (h : p.advance = some (q, m)) :
    q.work < p.work := by
  obtain ⟨-, ⟨item, hhand, -, rfl⟩ | ⟨hhand, hdone, item, rest, hdecode, rfl⟩⟩ := advance_cases h
  · simp [work, hhand]
  · have hlength := decode?_length hdecode
    rcases item with _ | _ | _ <;> simp_all [work, Item.isEnd] <;> omega

theorem advance_supply {p q : Pipeline} {m : Option Json} (h : p.advance = some (q, m)) :
    q.supply ≤ p.supply := by
  obtain ⟨-, ⟨item, hhand, -, rfl⟩ | ⟨hhand, hdone, item, rest, hdecode, rfl⟩⟩ := advance_cases h
  · simp [supply, hhand]
  · have hlength := decode?_length hdecode
    rcases item with _ | _ | _ <;> simp_all [supply, Item.isEnd] <;> omega

def settle (p : Pipeline) : Pipeline × List Json :=
  match _h : p.advance with
  | none => (p, [])
  | some (q, m) => (q.settle.1, m.toList ++ q.settle.2)
termination_by p.work
decreasing_by all_goals exact advance_work _h

theorem settle_supply (p : Pipeline) : p.settle.1.supply ≤ p.supply := by
  fun_induction settle p with
  | case1 => exact Nat.le_refl _
  | case2 p q m h ih => exact Nat.le_trans ih (advance_supply h)

def feed (bs : List UInt8) (p : Pipeline) : Pipeline :=
  { p with buffer := p.buffer ++ bs }

def endSource (p : Pipeline) : Pipeline :=
  { p with sourceEnded := true }

def take? (p : Pipeline) : Option (Item × Pipeline) :=
  match p.queue with
  | [] => none
  | item :: rest => some (item, { p with queue := rest })

theorem take?_supply {p q : Pipeline} {item : Item} (h : p.take? = some (item, q)) :
    q.supply < p.supply := by
  unfold take? at h
  split at h
  · simp at h
  · obtain ⟨-, rfl⟩ := Prod.mk.inj (Option.some.inj h)
    simp_all only [supply, List.length_cons]
    omega

/-- The consumer closes the session; an item in hand is lost. -/
def close (p : Pipeline) : Pipeline :=
  { p with closed := true, hand := none }

end Pipeline

end Latency

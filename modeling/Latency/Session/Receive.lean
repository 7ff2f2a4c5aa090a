import Latency.Session.Basic
/-!
# Receiving

Output of the server arrives only while the session waits and nothing is queued. `receive` takes the
next message within a time; `supply` bounds how many messages it can still give.
-/

namespace Latency.Session

variable {τ : Type} [Clock τ]

/-- Takes the first queued item, which lets the reader go on. -/
def takeQueued? (s : Session τ) : Option (Item × Session τ) :=
  match s.pipe.take? with
  | none => none
  | some (item, pipe) => some (item, { s with pipe := pipe }.settle)

def arrivalOctets : Arrival → List UInt8
  | .octets bs => bs
  | _ => []

def feedArrival (a : Arrival) (p : Pipeline) : Pipeline :=
  match a with
  | .octets bs => p.feed bs
  | _ => p.endSource

def deliver (time : τ) (a : Arrival) (rest : List (τ × Arrival)) (s : Session τ) : Session τ :=
  { s with
    clock := Clock.latest s.clock time
    process := { s.process with pending := rest }
    pipe := feedArrival a s.pipe }.settle

/-- Takes an item that is queued or arrives up to the deadline; else waits until then. -/
def awaitItem (deadline : τ) (s : Session τ) : List (τ × Arrival) → Option Item × Session τ
  | [] =>
    match s.takeQueued? with
    | some (item, next) => (some item, next)
    | none => (none, { s with clock := Clock.latest s.clock deadline })
  | (time, a) :: rest =>
    match s.takeQueued? with
    | some (item, next) => (some item, next)
    | none =>
      if Clock.upTo time deadline then
        awaitItem deadline (s.deliver time a rest) rest
      else (none, { s with clock := Clock.latest s.clock deadline })

/-- What a receive comes to with the item it took; no item means that its time ran out. -/
def receipt : Option Item → Except SessionError Json
  | some (.message m) => .ok m
  | some .ended => .error .ended
  | none => .error .timeout

/-- Takes the next message within a time; the reader has done what it can before the wait begins.
Once the end of the stream was taken, every further call fails with it. -/
def receive (timeout : τ) (s : Session τ) : Except SessionError Json × Session τ :=
  if s.sawEnd then (.error .ended, s)
  else
    let (item, next) := s.settle.awaitItem (Clock.add s.clock timeout) s.process.pending
    (receipt item, { next with sawEnd := item.any Item.isEnd })

def observe (m : Json) (s : Session τ) : Session τ :=
  match logText? m with
  | some text => { s with logs := s.logs ++ [text] }
  | none => s

/-! ## Termination of the waits -/

def supply (s : Session τ) : Nat :=
  s.pipe.supply + (s.process.pending.flatMap fun a => arrivalOctets a.2).length

omit [Clock τ] in
theorem pipe_note (line : String) (s : Session τ) : (s.note line).pipe = s.pipe := by
  unfold note; split <;> rfl

omit [Clock τ] in
theorem process_note (line : String) (s : Session τ) : (s.note line).process = s.process := by
  unfold note; split <;> rfl

omit [Clock τ] in
theorem supply_note (line : String) (s : Session τ) : (s.note line).supply = s.supply := by
  simp [supply, pipe_note, process_note]

omit [Clock τ] in
theorem supply_notes (f : Json → String) (ms : List Json) (s : Session τ) :
    (ms.foldl (fun acc m => acc.note (f m)) s).supply = s.supply := by
  induction ms generalizing s with
  | nil => rfl
  | cons m ms ih => rw [List.foldl_cons, ih, supply_note]

omit [Clock τ] in
theorem supply_settle (s : Session τ) : s.settle.supply ≤ s.supply := by
  simp only [settle, supply_notes]
  have := Pipeline.settle_supply s.pipe
  simp only [supply]
  omega

omit [Clock τ] in
theorem supply_takeQueued? {s next : Session τ} {item : Item}
    (h : s.takeQueued? = some (item, next)) : next.supply < s.supply := by
  unfold takeQueued? at h
  split at h
  · simp at h
  · rename_i found
    obtain ⟨-, rfl⟩ := Prod.mk.inj (Option.some.inj h)
    refine Nat.lt_of_le_of_lt (supply_settle _) ?_
    have := Pipeline.take?_supply found
    simp only [supply]
    omega

omit [Clock τ] in
theorem process_settle (s : Session τ) : s.settle.process = s.process := by
  have notes (f : Json → String) (ms : List Json) (t : Session τ) :
      (ms.foldl (fun acc m => acc.note (f m)) t).process = t.process := by
    induction ms generalizing t with
    | nil => rfl
    | cons m ms ih => rw [List.foldl_cons, ih, process_note]
  simp only [settle, notes]

omit [Clock τ] in
theorem supply_observe (m : Json) (s : Session τ) : (s.observe m).supply = s.supply := by
  unfold observe; split <;> rfl

theorem supply_feedArrival (a : Arrival) (p : Pipeline) :
    (feedArrival a p).supply = p.supply + (arrivalOctets a).length := by
  cases a <;>
    simp only [feedArrival, arrivalOctets, Pipeline.supply, Pipeline.feed, Pipeline.endSource,
      List.length_append, List.length_nil] <;>
    omega

theorem pending_deliver (s : Session τ) (time : τ) (a : Arrival) (rest : List (τ × Arrival)) :
    (s.deliver time a rest).process.pending = rest := by
  rw [deliver, process_settle]

theorem supply_deliver {s : Session τ} {time : τ} {a : Arrival} {rest : List (τ × Arrival)}
    (h : s.process.pending = (time, a) :: rest) : (s.deliver time a rest).supply ≤ s.supply := by
  refine Nat.le_trans (supply_settle _) ?_
  simp only [supply, h, supply_feedArrival, List.flatMap_cons, List.length_append]
  omega

theorem supply_awaitItem (deadline : τ) (s : Session τ) (arrivals : List (τ × Arrival))
    (h : s.process.pending = arrivals) :
    (s.awaitItem deadline arrivals).2.supply + (s.awaitItem deadline arrivals).1.toList.length ≤
      s.supply := by
  induction arrivals generalizing s with
  | nil =>
    unfold awaitItem
    split
    · exact supply_takeQueued? ‹_›
    · exact Nat.le_refl _
  | cons arrival rest ih =>
    obtain ⟨time, a⟩ := arrival
    unfold awaitItem
    split
    · exact supply_takeQueued? ‹_›
    · split
      · exact Nat.le_trans (ih _ (pending_deliver ..)) (supply_deliver h)
      · exact Nat.le_refl _

theorem supply_receive_add (s : Session τ) (timeout : τ) :
    (s.receive timeout).2.supply + (s.receive timeout).1.toOption.toList.length ≤ s.supply := by
  have bound := supply_awaitItem (Clock.add s.clock timeout) s.settle s.process.pending
    (by rw [process_settle])
  have settled := supply_settle s
  unfold receive
  split
  · exact Nat.le_refl _
  · generalize s.settle.awaitItem (Clock.add s.clock timeout) s.process.pending = r at bound
    obtain ⟨_ | _ | _, next⟩ := r <;>
      simp_all only [receipt, supply, Except.toOption, Option.toList_some, Option.toList_none,
        List.length_cons, List.length_nil] <;>
      omega

theorem supply_receive_ok {s next : Session τ} {timeout : τ} {m : Json}
    (h : s.receive timeout = (.ok m, next)) : next.supply < s.supply := by
  have bound := supply_receive_add s timeout
  rw [h] at bound
  exact bound

theorem supply_receive (s : Session τ) (timeout : τ) : (s.receive timeout).2.supply ≤ s.supply :=
  Nat.le_trans (Nat.le_add_right _ _) (supply_receive_add s timeout)

end Latency.Session

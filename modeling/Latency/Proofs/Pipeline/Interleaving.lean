import Mathlib.Logic.Relation
import Latency.Session.Receive
import Latency.Proofs.Pipeline.Outlook
/-!
# The reader and the session in any order

A `Link` is the queue with the two parties at its ends and the chunks that are still to arrive.
Chunks arrive, the source ends behind the last of them, in good order or because it cannot be read
any longer, the reader takes a step, the session takes what is queued: in any order.

One equation carries everything: what was taken and what is still in view make up the messages of
the whole stream and its end (`Valid.stream`).  `steps_transport_stream` is what it gives.
-/

namespace Latency

/-- The queue, its two parties and what is still to arrive. -/
structure Link where
  pipe : Pipeline
  sawEnd : Bool := false
  coming : List (List UInt8)
  taken : List Item := []

namespace Link

def start (limit : Option Nat) (capacity : Nat) (chunks : List (List UInt8)) : Link :=
  { pipe := { limit := limit, capacity := capacity }, coming := chunks }

/-- The session's part: it takes what is queued, and its time runs out if nothing is.  Once it has
taken the end, it takes nothing more. -/
def receive (l : Link) : Except SessionError Json × Link :=
  if l.sawEnd then (.error .ended, l)
  else
    match l.pipe.take? with
    | none => (Session.receipt none, l)
    | some (item, pipe) =>
      (Session.receipt (some item),
        { l with pipe := pipe, sawEnd := item.isEnd, taken := l.taken ++ [item] })

inductive Step : Link → Link → Prop where
  | arrive {l : Link} {chunk : List UInt8} {rest : List (List UInt8)} :
      l.coming = chunk :: rest → Step l { l with pipe := l.pipe.feed chunk, coming := rest }
  | finish {l : Link} : l.coming = [] → Step l { l with pipe := l.pipe.endSource }
  | read {l : Link} {pipe : Pipeline} {m : Option Json} :
      l.pipe.advance = some (pipe, m) → Step l { l with pipe := pipe }
  | receive (l : Link) : Step l l.receive.2

abbrev Steps : Link → Link → Prop :=
  Relation.ReflTransGen Step

/-! ## The invariant -/

/-- What holds all the way of a link that transports the items `whole`. -/
structure Valid (capacity : Nat) (whole : List Item) (l : Link) : Prop where
  /-- Nothing is lost, doubled or reordered. -/
  stream : l.taken ++ l.pipe.outlook l.coming.flatten true = whole
  source : l.pipe.Allows l.coming.flatten true
  isOpen : l.pipe.closed = false
  capacity_eq : l.pipe.capacity = capacity
  bounded : 0 < capacity → l.pipe.queue.length ≤ capacity
  sawEnd_iff : l.sawEnd = true ↔ .ended ∈ l.taken

theorem start_valid (limit : Option Nat) (capacity : Nat) (chunks : List (List UInt8)) :
    Valid capacity (Pipeline.items limit true chunks.flatten) (start limit capacity chunks) where
  stream := by simp [start, Pipeline.outlook]
  source := by simp [start, Pipeline.Allows]
  isOpen := rfl
  capacity_eq := rfl
  bounded := fun _ => Nat.zero_le _
  sawEnd_iff := by simp [start]

theorem arrive_valid {capacity : Nat} {whole : List Item} {l : Link} {chunk : List UInt8}
    {rest : List (List UInt8)} (hv : Valid capacity whole l) (h : l.coming = chunk :: rest) :
    Valid capacity whole { l with pipe := l.pipe.feed chunk, coming := rest } where
  stream := by
    rw [Pipeline.feed_outlook, ← List.flatten_cons, ← h]
    exact hv.stream
  source := by
    intro hsource
    obtain ⟨hnil, -⟩ := hv.source hsource
    rw [h, List.flatten_cons, List.append_eq_nil_iff] at hnil
    exact ⟨hnil.2, rfl⟩
  isOpen := hv.isOpen
  capacity_eq := hv.capacity_eq
  bounded := hv.bounded
  sawEnd_iff := hv.sawEnd_iff

theorem finish_valid {capacity : Nat} {whole : List Item} {l : Link}
    (hv : Valid capacity whole l) (h : l.coming = []) :
    Valid capacity whole { l with pipe := l.pipe.endSource } where
  stream := by
    rw [Pipeline.endSource_outlook]
    exact hv.stream
  source := fun _ => ⟨by simp [h], rfl⟩
  isOpen := hv.isOpen
  capacity_eq := hv.capacity_eq
  bounded := hv.bounded
  sawEnd_iff := hv.sawEnd_iff

theorem advance_queue_length {p q : Pipeline} {m : Option Json} (h : p.advance = some (q, m))
    (hpos : 0 < p.capacity) (hle : p.queue.length ≤ p.capacity) :
    q.queue.length ≤ p.capacity := by
  obtain ⟨-, ⟨item, -, hroom, rfl⟩ | ⟨-, -, item, rest, -, rfl⟩⟩ := Pipeline.advance_cases h
  · have hlt : p.queue.length < p.capacity := by
      simpa [Pipeline.hasRoom, Nat.ne_of_gt hpos] using hroom
    rw [List.length_append, List.length_singleton]
    exact hlt
  · exact hle

theorem read_valid {capacity : Nat} {whole : List Item} {l : Link} {pipe : Pipeline}
    {m : Option Json} (hv : Valid capacity whole l) (h : l.pipe.advance = some (pipe, m)) :
    Valid capacity whole { l with pipe := pipe } where
  stream := by
    rw [Pipeline.advance_outlook h hv.source]
    exact hv.stream
  source := fun hsource => hv.source ((Pipeline.advance_sameSource h).sourceEnded ▸ hsource)
  isOpen := (Pipeline.advance_sameSource h).closed.trans hv.isOpen
  capacity_eq := (Pipeline.advance_sameSource h).capacity.trans hv.capacity_eq
  bounded := by
    intro hpos
    have hcap := hv.capacity_eq
    subst hcap
    exact advance_queue_length h hpos (hv.bounded hpos)
  sawEnd_iff := hv.sawEnd_iff

theorem receive_valid {capacity : Nat} {whole : List Item} {l : Link}
    (hv : Valid capacity whole l) : Valid capacity whole l.receive.2 := by
  unfold receive
  split
  · exact hv
  · next hsaw =>
    split
    · exact hv
    · next item pipe htake =>
      have hsame := Pipeline.take?_sameSource htake
      have hnot : .ended ∉ l.taken := fun hmem => hsaw (hv.sawEnd_iff.2 hmem)
      constructor
      case stream =>
        have hstream := hv.stream
        rw [Pipeline.take?_outlook htake] at hstream
        simpa using hstream
      case source => exact fun hsource => hv.source (hsame.sourceEnded ▸ hsource)
      case isOpen => exact hsame.closed.trans hv.isOpen
      case capacity_eq => exact hsame.capacity.trans hv.capacity_eq
      case bounded =>
        intro hpos
        exact Nat.le_trans (Pipeline.take?_length htake) (hv.bounded hpos)
      case sawEnd_iff => cases item <;> simp [Item.isEnd, hnot]

theorem step_valid {capacity : Nat} {whole : List Item} {l l' : Link} (h : Step l l')
    (hv : Valid capacity whole l) : Valid capacity whole l' := by
  cases h with
  | arrive hcoming => exact arrive_valid hv hcoming
  | finish hcoming => exact finish_valid hv hcoming
  | read hadvance => exact read_valid hv hadvance
  | receive => exact receive_valid hv

theorem steps_valid {capacity : Nat} {whole : List Item} {l l' : Link} (h : Steps l l')
    (hv : Valid capacity whole l) : Valid capacity whole l' := by
  induction h with
  | refl => exact hv
  | tail _ hstep ih => exact step_valid hstep ih

theorem steps_taken {l l' : Link} (h : Steps l l') : l.taken <+: l'.taken := by
  induction h with
  | refl => exact List.prefix_rfl
  | tail _ hstep ih =>
    cases hstep with
    | arrive | finish | read => exact ih
    | receive =>
      refine ih.trans ?_
      unfold receive
      split
      · exact List.prefix_rfl
      · split
        · exact List.prefix_rfl
        · exact List.prefix_append _ _

/-! ## Progress -/

def toDo (l : Link) : Nat :=
  4 * l.coming.flatten.length + l.coming.length + (!l.pipe.sourceEnded).toNat +
    2 * l.pipe.work + l.pipe.queue.length

theorem advance_toDo {p q : Pipeline} {m : Option Json} (h : p.advance = some (q, m)) :
    2 * q.work + q.queue.length < 2 * p.work + p.queue.length := by
  have hwork := Pipeline.advance_work h
  obtain ⟨-, ⟨item, hhand, -, rfl⟩ | ⟨-, -, item, rest, -, rfl⟩⟩ := Pipeline.advance_cases h
  · simp only [List.length_append, List.length_singleton]
    omega
  · change 2 * _ + p.queue.length < 2 * p.work + p.queue.length
    omega

/-- Unless the session has everything, some step brings it closer to that. -/
theorem exists_step {capacity : Nat} {whole : List Item} {l : Link} (hv : Valid capacity whole l)
    (hsaw : l.sawEnd = false) (hmore : l.taken ≠ whole) :
    ∃ l', Step l l' ∧ l'.toDo < l.toDo := by
  cases hqueue : l.pipe.queue with
  | cons item rest =>
    refine ⟨_, .receive l, ?_⟩
    simp only [receive, hsaw, Pipeline.take?, hqueue, toDo, Pipeline.work, List.length_cons]
    simp
  | nil =>
    cases hadvance : l.pipe.advance with
    | some next =>
      obtain ⟨pipe, m⟩ := next
      have hlt := advance_toDo hadvance
      refine ⟨_, .read hadvance, ?_⟩
      simp only [toDo, (Pipeline.advance_sameSource hadvance).sourceEnded]
      omega
    | none =>
      cases hcoming : l.coming with
      | cons chunk rest =>
        refine ⟨_, .arrive hcoming, ?_⟩
        simp only [toDo, Pipeline.work, Pipeline.feed, hcoming, List.flatten_cons, List.length_cons,
          List.length_append]
        omega
      | nil =>
        cases hsource : l.pipe.sourceEnded with
        | false =>
          refine ⟨_, .finish hcoming, ?_⟩
          simp [toDo, Pipeline.work, Pipeline.endSource, hcoming, hsource]
        | true =>
          have hnothing := Pipeline.outlook_of_idle hadvance hqueue hsource
          exact absurd (by simpa [hnothing] using hv.stream) hmore

/-! ## What the session takes -/

/-- What the session is to take from a stream: its messages that are objects, in order, and one mark
of its end. -/
def delivery (limit : Option Nat) (bs : List UInt8) : List Item :=
  ((Frame.messages limit bs).filter Json.isObject).map Item.message ++ [.ended]

theorem eq_delivery_of_mem {limit : Option Nat} {bs : List UInt8} {taken : List Item}
    (h : taken <+: delivery limit bs) (hend : .ended ∈ taken) : taken = delivery limit bs := by
  rcases List.prefix_concat_iff.1 h with heq | hshort
  · exact heq
  · have hmem := hshort.subset hend
    simp at hmem

theorem valid_of_steps {limit : Option Nat} {capacity : Nat} {chunks : List (List UInt8)} {l : Link}
    (h : Steps (start limit capacity chunks) l) :
    Valid capacity (delivery limit chunks.flatten) l := by
  have hv := steps_valid h (start_valid limit capacity chunks)
  rwa [Pipeline.items_eq_messages] at hv

theorem taken_prefix_whole {capacity : Nat} {whole : List Item} {l : Link}
    (hv : Valid capacity whole l) : l.taken <+: whole :=
  ⟨_, hv.stream⟩

theorem exists_complete {limit : Option Nat} {capacity : Nat} {bs : List UInt8} {l : Link}
    (hv : Valid capacity (delivery limit bs) l) :
    ∃ l', Steps l l' ∧ l'.taken = delivery limit bs := by
  by_cases hall : l.taken = delivery limit bs
  · exact ⟨l, .refl, hall⟩
  · have hsaw : l.sawEnd = false := by
      rw [Bool.eq_false_iff]
      intro hsaw
      exact hall (eq_delivery_of_mem (taken_prefix_whole hv) (hv.sawEnd_iff.1 hsaw))
    obtain ⟨next, hstep, hlt⟩ := exists_step hv hsaw hall
    obtain ⟨last, hsteps, hlast⟩ := exists_complete (step_valid hstep hv)
    exact ⟨last, .head hstep hsteps, hlast⟩
termination_by l.toDo

theorem receive_of_sawEnd {l : Link} (h : l.sawEnd = true) :
    l.receive = (.error .ended, l) := by
  rw [receive, if_pos h]

/-- **The pipeline transports the stream.**  However a stream is cut into chunks and whatever the
order of the steps, the queue keeps to its capacity, the session has taken a prefix of the messages
and the end that follows them, after the end it only gets the end, and from everywhere the whole
delivery can still be reached. -/
theorem steps_transport_stream (limit : Option Nat) (capacity : Nat) (chunks : List (List UInt8))
    {l : Link} (h : Steps (start limit capacity chunks) l) :
    (0 < capacity → l.pipe.queue.length ≤ capacity) ∧
      l.taken <+: delivery limit chunks.flatten ∧
      (.ended ∈ l.taken → l.taken = delivery limit chunks.flatten ∧
        ∀ l', Steps l l' → l'.receive = (.error .ended, l')) ∧
      ∃ l', Steps l l' ∧ l'.taken = delivery limit chunks.flatten := by
  have hv := valid_of_steps h
  refine ⟨hv.bounded, taken_prefix_whole hv, ?_, exists_complete hv⟩
  intro hend
  have hall := eq_delivery_of_mem (taken_prefix_whole hv) hend
  refine ⟨hall, ?_⟩
  intro l' hsteps
  have hv' := steps_valid hsteps hv
  have hkept : .ended ∈ l'.taken := (steps_taken hsteps).subset hend
  exact receive_of_sawEnd (hv'.sawEnd_iff.2 hkept)

/-- A frame that is cut within the blank line of its header, through a queue of one place. -/
theorem steps_transport_cut_frame :
    ∃ l, Steps (start (some bodyLimit) 1
        [Frame.ascii "Content-Length: 2\r\n\r", Frame.ascii "\n\x7b\x7d"]) l ∧
      l.taken.length = 2 ∧ ∀ l', Steps l l' → l'.receive = (.error .ended, l') := by
  obtain ⟨l, hsteps, htaken⟩ := (steps_transport_stream (some bodyLimit) 1
    [Frame.ascii "Content-Length: 2\r\n\r", Frame.ascii "\n\x7b\x7d"] .refl).2.2.2
  have hend : .ended ∈ l.taken := by simp [htaken, delivery]
  refine ⟨l, hsteps, ?_, ((steps_transport_stream _ _ _ hsteps).2.2.1 hend).2⟩
  rw [htaken]
  decide +kernel

end Link

end Latency

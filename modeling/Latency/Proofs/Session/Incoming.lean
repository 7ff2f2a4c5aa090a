import Mathlib.Algebra.Order.Ring.Rat
import Mathlib.Tactic.Linarith
import Latency.Session.Receive
import Latency.Proofs.Pipeline.Outlook
/-!
# What is still to come to a session, and when

`incoming` lists the items that a session has not taken, each with the time from which it can be
taken: those that are there already, and with each arrival those that could not be decoded before
it.  The end of the stream is the last of them.

On an exact clock a receive takes the first of them if it comes up to the deadline, and leaves the
others as they are (`receive_message`); else it ends exactly at the deadline and leaves all of them
(`receive_nothing`).
-/

namespace Latency

/-! ## Exact clocks -/

namespace Clock

@[simp] theorem add_rat (a b : Rat) : Clock.add a b = a + b := rfl

@[simp] theorem sub_rat (a b : Rat) : Clock.sub a b = a - b := rfl

@[simp] theorem zero_rat : (Clock.zero : Rat) = 0 := rfl

@[simp] theorem fits_rat (a : Rat) : Clock.fits a = true := rfl

@[simp] theorem upTo_rat (a b : Rat) : Clock.upTo a b = true ↔ a ≤ b := by
  change decide (a ≤ b) = true ↔ a ≤ b
  exact decide_eq_true_iff

theorem elapsed_rat (start now : Rat) : Clock.elapsed start now = (now - start) * 1000 := rfl

@[simp] theorem latest_rat (a b : Rat) : Clock.latest a b = max a b := by
  change (if decide (a < b) = true then b else a) = max a b
  by_cases h : a < b
  · rw [decide_eq_true h, if_pos rfl, max_eq_right (le_of_lt h)]
  · rw [decide_eq_false h, if_neg Bool.false_ne_true, max_eq_left (le_of_not_gt h)]

end Clock

/-! ## Pipelines that differ by what was taken -/

namespace Pipeline

/-- `q` is `p` with `front` taken from it, however far the reader of either has come. -/
structure Behind (front : List Item) (p q : Pipeline) : Prop where
  source : q.sourceEnded = p.sourceEnded
  outlook : ∀ more ended, p.Allows more ended →
    p.outlook more ended = front ++ q.outlook more ended

theorem allows_upcoming (p : Pipeline) : p.Allows [] p.sourceEnded :=
  fun h => ⟨rfl, h⟩

theorem allows_of_source {p : Pipeline} (hsource : p.sourceEnded = false) (more : List UInt8)
    (ended : Bool) : p.Allows more ended := by
  intro hended
  rw [hsource] at hended
  cases hended

theorem Behind.upcoming {front : List Item} {p q : Pipeline} (h : Behind front p q) :
    p.upcoming = front ++ q.upcoming := by
  rw [Pipeline.upcoming, Pipeline.upcoming, h.source]
  exact h.outlook [] p.sourceEnded p.allows_upcoming

theorem behind_settle (p : Pipeline) : Behind [] p p.settle.1 where
  source := (settle_sameSource p).sourceEnded
  outlook := fun _ _ hok => (settle_outlook hok).symm

theorem behind_take? {p q : Pipeline} {item : Item} (h : p.take? = some (item, q)) :
    Behind [item] p q where
  source := (take?_sameSource h).sourceEnded
  outlook := fun more ended _ => take?_outlook h more ended

theorem Behind.feedArrival {front : List Item} {p q : Pipeline} (h : Behind front p q)
    (hsource : p.sourceEnded = false) (a : Arrival) :
    Behind front (Session.feedArrival a p) (Session.feedArrival a q) := by
  have hok := allows_of_source hsource
  cases a with
  | octets bs =>
    refine ⟨h.source, ?_⟩
    intro more ended _
    simp only [Session.feedArrival, feed_outlook]
    exact h.outlook (bs ++ more) ended (hok _ _)
  | exit | endOfOutput =>
    refine ⟨rfl, ?_⟩
    intro more ended _
    simp only [Session.feedArrival, endSource_outlook]
    exact h.outlook more ended (hok _ _)

end Pipeline

namespace Session

/-! ## The items to come -/

section Incoming

variable {τ : Type} [Clock τ]

/-- What arrivals bring: the items that can be decoded with each of them and not before it.  Nothing
comes behind the end of the source. -/
def incomingFrom (now : τ) (p : Pipeline) : List (τ × Arrival) → List (τ × Item)
  | [] => []
  | (time, a) :: rest =>
    if p.sourceEnded then []
    else
      ((feedArrival a p).upcoming.drop p.upcoming.length).map (Clock.latest now time, ·) ++
        incomingFrom (Clock.latest now time) (feedArrival a p) rest

def ahead (s : Session τ) : List (τ × Item) :=
  s.pipe.upcoming.map (s.clock, ·) ++ incomingFrom s.clock s.pipe s.process.pending

/-- The items that the session has not taken, each with the time from which it can be taken.  Once
the end was taken, it is all there is, again and again. -/
def incoming (s : Session τ) : List (τ × Item) :=
  if s.sawEnd then [(s.clock, .ended)] else s.ahead

theorem incomingFrom_behind {front : List Item} {p q : Pipeline} (h : Pipeline.Behind front p q)
    (now : τ) (arrivals : List (τ × Arrival)) :
    incomingFrom now p arrivals = incomingFrom now q arrivals := by
  induction arrivals generalizing now p q with
  | nil => rfl
  | cons arrival rest ih =>
    obtain ⟨time, a⟩ := arrival
    simp only [incomingFrom, h.source]
    cases hsource : p.sourceEnded with
    | true => rfl
    | false =>
      have hnext := h.feedArrival hsource a
      rw [if_neg Bool.false_ne_true, if_neg Bool.false_ne_true, ih hnext, hnext.upcoming,
        h.upcoming, List.length_append, List.drop_append]
      simp

omit [Clock τ] in
theorem settle_eq (s : Session τ) :
    ∃ trace, s.settle = { s with pipe := s.pipe.settle.1, trace := trace } := by
  have notes (f : Json → String) (ms : List Json) (t : Session τ) :
      ∃ trace, ms.foldl (fun acc m => acc.note (f m)) t = { t with trace := trace } := by
    induction ms generalizing t with
    | nil => exact ⟨t.trace, rfl⟩
    | cons m ms ih =>
      obtain ⟨trace, htrace⟩ := ih (t.note (f m))
      refine ⟨trace, ?_⟩
      rw [List.foldl_cons, htrace]
      unfold note
      split <;> rfl
  exact notes (decodedLine s.label) s.pipe.settle.2 { s with pipe := s.pipe.settle.1 }

theorem ahead_settle (s : Session τ) : s.settle.ahead = s.ahead := by
  obtain ⟨trace, htrace⟩ := s.settle_eq
  have hbehind := Pipeline.behind_settle s.pipe
  rw [htrace, ahead, ahead, incomingFrom_behind hbehind, hbehind.upcoming]
  rfl

omit [Clock τ] in
theorem takeQueued?_some {s next : Session τ} {item : Item}
    (h : s.takeQueued? = some (item, next)) :
    ∃ pipe, s.pipe.take? = some (item, pipe) ∧ next = { s with pipe := pipe }.settle := by
  unfold takeQueued? at h
  split at h
  · cases h
  · next item' pipe htake =>
    obtain ⟨rfl, rfl⟩ := Prod.mk.inj (Option.some.inj h)
    exact ⟨pipe, htake, rfl⟩

omit [Clock τ] in
theorem queue_of_takeQueued?_none {s : Session τ} (h : s.takeQueued? = none) :
    s.pipe.queue = [] := by
  unfold takeQueued? Pipeline.take? at h
  cases hqueue : s.pipe.queue with
  | nil => rfl
  | cons => simp [hqueue] at h

theorem ahead_of_takeQueued? {s next : Session τ} {item : Item}
    (h : s.takeQueued? = some (item, next)) :
    s.ahead = (s.clock, item) :: next.ahead ∧ next.clock = s.clock := by
  obtain ⟨pipe, htake, rfl⟩ := takeQueued?_some h
  have hbehind := Pipeline.behind_take? htake
  rw [ahead_settle]
  obtain ⟨trace, htrace⟩ := settle_eq { s with pipe := pipe }
  refine ⟨?_, by rw [htrace]⟩
  rw [ahead, ahead, incomingFrom_behind hbehind, hbehind.upcoming]
  rfl

omit [Clock τ] in
theorem settle_idle (s : Session τ) : s.settle.pipe.advance = none := by
  obtain ⟨trace, htrace⟩ := s.settle_eq
  rw [htrace]
  exact Pipeline.settle_advance s.pipe

theorem clock_deliver (s : Session τ) (time : τ) (a : Arrival) (rest : List (τ × Arrival)) :
    (s.deliver time a rest).clock = Clock.latest s.clock time := by
  unfold deliver
  generalize hfed : ({ s with
    clock := Clock.latest s.clock time
    process := { s.process with pending := rest }
    pipe := feedArrival a s.pipe } : Session τ) = fed
  obtain ⟨trace, htrace⟩ := fed.settle_eq
  rw [htrace, ← hfed]

/-- While nothing is queued, delivering an arrival brings its items and nothing else. -/
theorem ahead_deliver {s : Session τ} {time : τ} {a : Arrival} {rest : List (τ × Arrival)}
    (hidle : s.pipe.advance = none) (hqueue : s.pipe.queue = [])
    (hpending : s.process.pending = (time, a) :: rest) :
    (s.deliver time a rest).ahead = s.ahead := by
  have hnone := Pipeline.upcoming_of_idle hidle hqueue
  rw [deliver, ahead_settle, ahead, ahead, hpending, hnone, incomingFrom, hnone]
  cases hsource : s.pipe.sourceEnded with
  | false => simp
  | true =>
    have hnothing := Pipeline.outlook_of_idle hidle hqueue hsource
    have hended : (feedArrival a s.pipe).sourceEnded = true := by
      cases a with
      | octets => exact hsource
      | exit | endOfOutput => rfl
    have hstill : (feedArrival a s.pipe).upcoming = [] := by
      cases a with
      | octets bs =>
        rw [Pipeline.upcoming]
        exact (Pipeline.feed_outlook s.pipe bs [] _).trans (hnothing _ _)
      | exit | endOfOutput =>
        rw [Pipeline.upcoming]
        exact (Pipeline.endSource_outlook s.pipe [] _).trans (hnothing _ _)
    cases rest with
    | nil => simp [hstill, incomingFrom]
    | cons => simp [hstill, incomingFrom, hended]

end Incoming

/-! ## Receiving on an exact clock -/

theorem le_of_mem_incomingFrom {now : Rat} {p : Pipeline} {arrivals : List (Rat × Arrival)}
    {x : Rat × Item} (h : x ∈ incomingFrom now p arrivals) : now ≤ x.1 := by
  induction arrivals generalizing now p with
  | nil => simp [incomingFrom] at h
  | cons arrival rest ih =>
    obtain ⟨time, a⟩ := arrival
    rw [incomingFrom] at h
    split at h
    · cases h
    · rw [Clock.latest_rat, List.mem_append, List.mem_map] at h
      rcases h with ⟨item, -, rfl⟩ | h
      · exact le_max_left now time
      · exact (le_max_left now time).trans (ih h)

theorem incomingFrom_of_lt {now deadline time : Rat} (p : Pipeline) (a : Arrival)
    (rest : List (Rat × Arrival)) (hnow : now ≤ deadline) (hlt : deadline < time) :
    incomingFrom deadline p ((time, a) :: rest) = incomingFrom now p ((time, a) :: rest) ∧
      ∀ x ∈ incomingFrom now p ((time, a) :: rest), deadline < x.1 := by
  have hmax : max deadline time = time := max_eq_right hlt.le
  have hmax' : max now time = time := max_eq_right (hnow.trans hlt.le)
  simp only [incomingFrom, Clock.latest_rat, hmax, hmax', true_and]
  intro x hx
  split at hx
  · cases hx
  · rw [List.mem_append, List.mem_map] at hx
    rcases hx with ⟨item, -, rfl⟩ | hx
    · exact hlt
    · exact lt_of_lt_of_le hlt (le_of_mem_incomingFrom hx)

/-- What comes of a wait until a deadline: the first item if it can be taken by then, else nothing;
the clock and what is left to come. -/
inductive Awaited (deadline : Rat) :
    List (Rat × Item) → Option Item → Rat → List (Rat × Item) → Prop where
  | item {time : Rat} {item : Item} {rest : List (Rat × Item)} :
      time ≤ deadline → Awaited deadline ((time, item) :: rest) (some item) time rest
  | nothing {items : List (Rat × Item)} :
      (∀ x ∈ items, deadline < x.1) → Awaited deadline items none deadline items

theorem Awaited.of_le {deadline time clock : Rat} {item : Item} {got : Option Item}
    {rest left : List (Rat × Item)} (h : Awaited deadline ((time, item) :: rest) got clock left)
    (hle : time ≤ deadline) : got = some item ∧ clock = time ∧ left = rest := by
  cases h with
  | item => exact ⟨rfl, rfl, rfl⟩
  | nothing hlater => exact absurd hle (not_le.2 (hlater _ List.mem_cons_self))

theorem Awaited.of_lt {deadline clock : Rat} {got : Option Item} {items left : List (Rat × Item)}
    (h : Awaited deadline items got clock left) (hlt : ∀ x ∈ items, deadline < x.1) :
    got = none ∧ clock = deadline ∧ left = items := by
  cases h with
  | item hle => exact absurd hle (not_le.2 (hlt _ List.mem_cons_self))
  | nothing => exact ⟨rfl, rfl, rfl⟩

theorem awaitItem_awaited {deadline : Rat} {s : Session Rat} {arrivals : List (Rat × Arrival)}
    (hpending : s.process.pending = arrivals) (hidle : s.pipe.advance = none)
    (hclock : s.clock ≤ deadline) :
    Awaited deadline s.ahead (s.awaitItem deadline arrivals).1
      (s.awaitItem deadline arrivals).2.clock (s.awaitItem deadline arrivals).2.ahead := by
  induction arrivals generalizing s with
  | nil =>
    unfold awaitItem
    split
    · next item next htake =>
      obtain ⟨hahead, hsame⟩ := ahead_of_takeQueued? htake
      rw [hahead, hsame]
      exact .item hclock
    · next htake =>
      have hnone := Pipeline.upcoming_of_idle hidle (queue_of_takeQueued?_none htake)
      simp only [ahead, hnone, hpending, incomingFrom, Clock.latest_rat, max_eq_right hclock]
      exact .nothing (by simp)
  | cons arrival rest ih =>
    obtain ⟨time, a⟩ := arrival
    unfold awaitItem
    split
    · next item next htake =>
      obtain ⟨hahead, hsame⟩ := ahead_of_takeQueued? htake
      rw [hahead, hsame]
      exact .item hclock
    · next htake =>
      have hqueue := queue_of_takeQueued?_none htake
      split
      · next htime =>
        have htime' : time ≤ deadline := (Clock.upTo_rat time deadline).1 htime
        rw [← ahead_deliver hidle hqueue hpending]
        apply ih (pending_deliver ..) (settle_idle _)
        rw [clock_deliver, Clock.latest_rat]
        exact max_le hclock htime'
      · next htime =>
        have hlt : deadline < time := lt_of_not_ge fun hle => htime ((Clock.upTo_rat _ _).2 hle)
        have hnone := Pipeline.upcoming_of_idle hidle hqueue
        obtain ⟨hsame, hlater⟩ := incomingFrom_of_lt s.pipe a rest hclock hlt
        simp only [ahead, hnone, hpending, Clock.latest_rat, max_eq_right hclock, hsame,
          List.map_nil, List.nil_append]
        exact .nothing hlater

theorem receive_awaited {s : Session Rat} (hsaw : s.sawEnd = false) {timeout : Rat}
    (htimeout : 0 ≤ timeout) :
    ∃ item next, s.receive timeout = (receipt item, next) ∧
      next.sawEnd = item.any Item.isEnd ∧
      Awaited (s.clock + timeout) s.ahead item next.clock next.ahead := by
  obtain ⟨trace, htrace⟩ := s.settle_eq
  have hclock : s.settle.clock = s.clock := by rw [htrace]
  have hpending : s.settle.process.pending = s.process.pending := by rw [htrace]
  have hdeadline : s.settle.clock ≤ s.clock + timeout := by
    rw [hclock]
    linarith
  have hawaited := awaitItem_awaited hpending s.settle_idle hdeadline
  rw [ahead_settle] at hawaited
  unfold receive
  rw [if_neg (by simp [hsaw])]
  exact ⟨_, _, rfl, rfl, hawaited⟩

theorem incoming_of_sawEnd {s : Session Rat} (h : s.sawEnd = true) :
    s.incoming = [(s.clock, .ended)] := by
  rw [incoming, if_pos h]

theorem incoming_of_not_sawEnd {s : Session Rat} (h : s.sawEnd = false) :
    s.incoming = s.ahead := by
  rw [incoming, if_neg (by simp [h])]

theorem receive_of_sawEnd {s : Session Rat} (h : s.sawEnd = true) (timeout : Rat) :
    s.receive timeout = (.error .ended, s) := by
  rw [receive, if_pos h]

/-- A receive takes the first message to come, if it comes up to the deadline. -/
theorem receive_message {s : Session Rat} {timeout time : Rat} {m : Json}
    {rest : List (Rat × Item)} (h : s.incoming = (time, .message m) :: rest)
    (htimeout : 0 ≤ timeout) (htime : time ≤ s.clock + timeout) :
    ∃ next, s.receive timeout = (.ok m, next) ∧ next.clock = time ∧ next.incoming = rest := by
  cases hsaw : s.sawEnd with
  | true => simp [incoming_of_sawEnd hsaw] at h
  | false =>
    obtain ⟨item, next, hreceive, hend, hawaited⟩ := receive_awaited hsaw htimeout
    rw [← incoming_of_not_sawEnd hsaw, h] at hawaited
    obtain ⟨rfl, hclock, hrest⟩ := hawaited.of_le htime
    exact ⟨next, hreceive, hclock, (incoming_of_not_sawEnd hend).trans hrest⟩

theorem receive_ended {s : Session Rat} {timeout time : Rat} {rest : List (Rat × Item)}
    (h : s.incoming = (time, .ended) :: rest) (htimeout : 0 ≤ timeout)
    (htime : time ≤ s.clock + timeout) :
    ∃ next, s.receive timeout = (.error .ended, next) ∧ next.clock = time ∧
      next.incoming = [(time, .ended)] := by
  cases hsaw : s.sawEnd with
  | true =>
    have hincoming := incoming_of_sawEnd hsaw
    rw [hincoming] at h
    obtain ⟨hhead, -⟩ := List.cons.inj h
    obtain ⟨rfl, -⟩ := Prod.mk.inj hhead
    exact ⟨s, receive_of_sawEnd hsaw timeout, rfl, hincoming⟩
  | false =>
    obtain ⟨item, next, hreceive, hend, hawaited⟩ := receive_awaited hsaw htimeout
    rw [← incoming_of_not_sawEnd hsaw, h] at hawaited
    obtain ⟨rfl, rfl, -⟩ := hawaited.of_le htime
    exact ⟨next, hreceive, rfl, incoming_of_sawEnd hend⟩

/-- A receive to which nothing comes up to the deadline ends there and leaves all as it is. -/
theorem receive_nothing {s : Session Rat} {timeout : Rat} (htimeout : 0 ≤ timeout)
    (h : ∀ x ∈ s.incoming, s.clock + timeout < x.1) :
    ∃ next, s.receive timeout = (.error .timeout, next) ∧ next.clock = s.clock + timeout ∧
      next.incoming = s.incoming := by
  cases hsaw : s.sawEnd with
  | true =>
    have hnow := h (s.clock, .ended) (by simp [incoming_of_sawEnd hsaw])
    exact absurd hnow (by simp [htimeout])
  | false =>
    obtain ⟨item, next, hreceive, hend, hawaited⟩ := receive_awaited hsaw htimeout
    rw [incoming_of_not_sawEnd hsaw] at h ⊢
    obtain ⟨rfl, hclock, hrest⟩ := hawaited.of_lt h
    exact ⟨next, hreceive, hclock, (incoming_of_not_sawEnd hend).trans hrest⟩

/-! ## The order of what is to come -/

theorem clock_le_of_mem_incoming {s : Session Rat} {x : Rat × Item} (h : x ∈ s.incoming) :
    s.clock ≤ x.1 := by
  rw [incoming] at h
  split at h
  · rw [List.mem_singleton.1 h]
  · rw [ahead, List.mem_append, List.mem_map] at h
    rcases h with ⟨item, -, rfl⟩ | h
    · exact le_refl _
    · exact le_of_mem_incomingFrom h

theorem incomingFrom_sorted (now : Rat) (p : Pipeline) (arrivals : List (Rat × Arrival)) :
    (incomingFrom now p arrivals).Pairwise fun x y => x.1 ≤ y.1 := by
  induction arrivals generalizing now p with
  | nil => exact .nil
  | cons arrival rest ih =>
    obtain ⟨time, a⟩ := arrival
    rw [incomingFrom]
    split
    · exact .nil
    · refine List.pairwise_append.2 ⟨?_, ih _ _, ?_⟩
      · rw [List.pairwise_map]
        exact List.pairwise_of_forall fun _ _ => le_refl _
      · intro x hx y hy
        obtain ⟨item, -, rfl⟩ := List.mem_map.1 hx
        exact le_of_mem_incomingFrom hy

/-- Nothing overtakes what comes before it. -/
theorem incoming_sorted (s : Session Rat) : s.incoming.Pairwise fun x y => x.1 ≤ y.1 := by
  rw [incoming]
  split
  · exact List.pairwise_singleton _ _
  · refine List.pairwise_append.2 ⟨?_, incomingFrom_sorted _ _ _, ?_⟩
    · rw [List.pairwise_map]
      exact List.pairwise_of_forall fun _ _ => le_refl _
    · intro x hx y hy
      obtain ⟨item, -, rfl⟩ := List.mem_map.1 hx
      exact le_of_mem_incomingFrom hy

theorem incoming_late {s : Session Rat} {deadline : Rat} {x : Rat × Item}
    {rest : List (Rat × Item)} (h : s.incoming = x :: rest) (hlate : deadline < x.1) :
    ∀ y ∈ s.incoming, deadline < y.1 := by
  have hsorted := s.incoming_sorted
  rw [h, List.pairwise_cons] at hsorted
  intro y hy
  rw [h, List.mem_cons] at hy
  rcases hy with rfl | hy
  · exact hlate
  · exact lt_of_lt_of_le hlate (hsorted.1 y hy)

theorem incoming_early {s : Session Rat} {deadline : Rat} {x : Rat × Item}
    {before after : List (Rat × Item)} (h : s.incoming = before ++ x :: after)
    (hearly : x.1 < deadline) : ∀ y ∈ before, y.1 < deadline := by
  have hsorted := h ▸ s.incoming_sorted
  intro y hy
  exact lt_of_le_of_lt ((List.pairwise_append.1 hsorted).2.2 y hy x List.mem_cons_self) hearly

end Session

end Latency

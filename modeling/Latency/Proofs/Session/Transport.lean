import Latency.Proofs.Pipeline.Interleaving
import Latency.Proofs.Session.Incoming
/-!
# A session at its end of the link

Whatever a session does in a receive is a run of its link: the reader settles, chunks arrive and the
output ends while nothing is queued, and at last the first item is taken (`steps_receive`).  So what
holds of all runs of a link holds of a session that receives one message after another:
`receives_delivery` says what it gets.
-/

namespace Latency.Link

variable {τ : Type} [Clock τ]

def chunksOf : List (τ × Arrival) → List (List UInt8)
  | (_, .octets bs) :: rest => bs :: chunksOf rest
  | _ => []

/-- Nothing is written behind the end of the output. -/
def Orderly : List (τ × Arrival) → Prop
  | (_, .octets _) :: rest => Orderly rest
  | (_, .exit _) :: rest | (_, .endOfOutput) :: rest => chunksOf rest = [] ∧ Orderly rest
  | [] => True

def ofSession (s : Session τ) (taken : List Item) : Link :=
  { pipe := s.pipe, sawEnd := s.sawEnd, coming := chunksOf s.process.pending, taken := taken }

omit [Clock τ] in
theorem ofSession_settle (s : Session τ) (taken : List Item) :
    ofSession s.settle taken = { ofSession s taken with pipe := s.pipe.settle.1 } := by
  obtain ⟨trace, htrace⟩ := s.settle_eq
  rw [htrace]
  rfl

omit [Clock τ] in
theorem sawEnd_settle (s : Session τ) : s.settle.sawEnd = s.sawEnd := by
  obtain ⟨trace, htrace⟩ := s.settle_eq
  rw [htrace]

theorem steps_settle (l : Link) : Steps l { l with pipe := l.pipe.settle.1 } := by
  have hsteps (p : Pipeline) : Steps { l with pipe := p } { l with pipe := p.settle.1 } := by
    fun_induction Pipeline.settle p with
    | case1 p => exact .refl
    | case2 p q m hadvance ih => exact .head (.read hadvance) ih
  exact hsteps l.pipe

omit [Clock τ] in
theorem step_feedArrival {s : Session τ} {time : τ} {a : Arrival} {rest : List (τ × Arrival)}
    (hpending : s.process.pending = (time, a) :: rest) (horderly : Orderly s.process.pending)
    (taken : List Item) :
    Step (ofSession s taken)
      { ofSession s taken with pipe := Session.feedArrival a s.pipe, coming := chunksOf rest } := by
  rw [hpending] at horderly
  cases a with
  | octets bs =>
    apply Step.arrive
    rw [ofSession, hpending]
    rfl
  | exit | endOfOutput =>
    have hcoming : (ofSession s taken).coming = [] := by
      rw [ofSession, hpending]
      rfl
    have hrest : chunksOf rest = (ofSession s taken).coming := horderly.1.trans hcoming.symm
    rw [hrest]
    exact .finish hcoming

theorem steps_deliver {s : Session τ} {time : τ} {a : Arrival} {rest : List (τ × Arrival)}
    (hpending : s.process.pending = (time, a) :: rest) (horderly : Orderly s.process.pending)
    (taken : List Item) :
    Steps (ofSession s taken) (ofSession (s.deliver time a rest) taken) := by
  rw [Session.deliver, ofSession_settle]
  exact .head (step_feedArrival hpending horderly taken) (steps_settle _)

omit [Clock τ] in
theorem steps_takeQueued {s next : Session τ} {item : Item} (hsaw : s.sawEnd = false)
    (htake : s.takeQueued? = some (item, next)) (taken : List Item) :
    Steps (ofSession s taken)
      (ofSession { next with sawEnd := item.isEnd } (taken ++ [item])) := by
  obtain ⟨pipe, hpipe, rfl⟩ := Session.takeQueued?_some htake
  have hreceive : (ofSession s taken).receive.2 =
      { ofSession s taken with pipe := pipe, sawEnd := item.isEnd, taken := taken ++ [item] } := by
    have hpipe' : (ofSession s taken).pipe.take? = some (item, pipe) := hpipe
    have hsaw' : (ofSession s taken).sawEnd = false := hsaw
    simp only [receive, hpipe', hsaw']
    rfl
  have hstep := Step.receive (ofSession s taken)
  rw [hreceive] at hstep
  refine .head hstep ?_
  obtain ⟨trace, htrace⟩ := Session.settle_eq { s with pipe := pipe }
  rw [htrace]
  exact steps_settle _

omit [Clock τ] in
theorem orderly_tail {time : τ} {a : Arrival} {rest : List (τ × Arrival)}
    (h : Orderly ((time, a) :: rest)) : Orderly rest := by
  cases a with
  | octets bs => exact h
  | exit | endOfOutput => exact h.2

omit [Clock τ] in
theorem ofSession_timeout {s : Session τ} (hsaw : s.sawEnd = false) (clock : τ)
    (taken : List Item) :
    ofSession { s with clock := clock, sawEnd := false } (taken ++ []) = ofSession s taken := by
  rw [ofSession, ofSession, hsaw, List.append_nil]

omit [Clock τ] in
theorem pending_takeQueued {s next : Session τ} {item : Item}
    (htake : s.takeQueued? = some (item, next)) : next.process.pending = s.process.pending := by
  obtain ⟨pipe, -, rfl⟩ := Session.takeQueued?_some htake
  rw [Session.process_settle]

theorem steps_awaitItem {deadline : τ} {s : Session τ} {arrivals : List (τ × Arrival)}
    (hpending : s.process.pending = arrivals) (horderly : Orderly arrivals)
    (hsaw : s.sawEnd = false) (taken : List Item) {item : Option Item} {next : Session τ}
    (hawait : s.awaitItem deadline arrivals = (item, next)) :
    Orderly next.process.pending ∧
      Steps (ofSession s taken)
        (ofSession { next with sawEnd := item.any Item.isEnd } (taken ++ item.toList)) := by
  induction arrivals generalizing s with
  | nil =>
    unfold Session.awaitItem at hawait
    split at hawait
    · next htake =>
      obtain ⟨rfl, rfl⟩ := Prod.mk.inj hawait
      refine ⟨?_, steps_takeQueued hsaw htake taken⟩
      rw [pending_takeQueued htake, hpending]
      exact horderly
    · obtain ⟨rfl, rfl⟩ := Prod.mk.inj hawait
      exact ⟨hpending ▸ horderly, ofSession_timeout hsaw _ taken ▸ .refl⟩
  | cons arrival rest ih =>
    obtain ⟨time, a⟩ := arrival
    unfold Session.awaitItem at hawait
    split at hawait
    · next htake =>
      obtain ⟨rfl, rfl⟩ := Prod.mk.inj hawait
      refine ⟨?_, steps_takeQueued hsaw htake taken⟩
      rw [pending_takeQueued htake, hpending]
      exact horderly
    · split at hawait
      · have harrived := steps_deliver hpending (hpending ▸ horderly) taken
        have hopen : (s.deliver time a rest).sawEnd = false := by
          rw [Session.deliver, sawEnd_settle]
          exact hsaw
        have hleft := Session.pending_deliver s time a rest
        obtain ⟨hkept, hothers⟩ := ih hleft (orderly_tail horderly) hopen hawait
        exact ⟨hkept, harrived.trans hothers⟩
      · obtain ⟨rfl, rfl⟩ := Prod.mk.inj hawait
        exact ⟨hpending ▸ horderly, ofSession_timeout hsaw _ taken ▸ .refl⟩

/-- **A receive is a run of the link.**  It takes at most one item, and its result is what that item
comes to. -/
theorem steps_receive {s : Session τ} (horderly : Orderly s.process.pending)
    (hsaw : s.sawEnd = false) (timeout : τ) (taken : List Item) :
    ∃ (item : Option Item) (next : Session τ),
      s.receive timeout = (Session.receipt item, next) ∧
      next.sawEnd = item.any Item.isEnd ∧ Orderly next.process.pending ∧
      Steps (ofSession s taken) (ofSession next (taken ++ item.toList)) := by
  have hpending : s.settle.process.pending = s.process.pending := by
    rw [Session.process_settle]
  have hopen : s.settle.sawEnd = false := (sawEnd_settle s).trans hsaw
  have hsettled : Steps (ofSession s taken) (ofSession s.settle taken) := by
    rw [ofSession_settle]
    exact steps_settle (ofSession s taken)
  obtain ⟨⟨item, next⟩, hawait⟩ :
      ∃ r, s.settle.awaitItem (Clock.add s.clock timeout) s.process.pending = r := ⟨_, rfl⟩
  obtain ⟨hkept, hsteps⟩ := steps_awaitItem hpending horderly hopen taken hawait
  refine ⟨item, { next with sawEnd := item.any Item.isEnd }, ?_, rfl, hkept, hsettled.trans hsteps⟩
  rw [Session.receive, if_neg (by simp [hsaw]), hawait]

/-! ## One receive after another -/

/-- The results of receives with these times. -/
def receives (s : Session τ) : List τ → List (Except SessionError Json)
  | [] => []
  | timeout :: rest => (s.receive timeout).1 :: receives (s.receive timeout).2 rest

theorem receives_of_sawEnd {s : Session τ} (hsaw : s.sawEnd = true) (timeouts : List τ) :
    receives s timeouts = List.replicate timeouts.length (.error .ended) := by
  induction timeouts with
  | nil => rfl
  | cons timeout rest ih =>
    have hreceive : s.receive timeout = (.error .ended, s) := if_pos hsaw
    rw [receives, hreceive, ih]
    rfl

/-- The results are those of items that a run of the link takes; behind the end there is only the
end. -/
theorem receives_steps {s : Session τ} (horderly : Orderly s.process.pending)
    (hsaw : s.sawEnd = false) (timeouts : List τ) (taken : List Item) :
    ∃ (items : List (Option Item)) (n : Nat) (l : Link), receives s timeouts =
        items.map Session.receipt ++ List.replicate n (.error .ended) ∧
      Steps (ofSession s taken) l ∧ l.taken = taken ++ items.reduceOption ∧
      (0 < n → .ended ∈ l.taken) := by
  induction timeouts generalizing s taken with
  | nil => exact ⟨[], 0, ofSession s taken, rfl, .refl, (List.append_nil taken).symm, by simp⟩
  | cons timeout rest ih =>
    obtain ⟨item, next, hreceive, hsaw', hkept, hsteps⟩ :=
      steps_receive horderly hsaw timeout taken
    rw [receives, hreceive]
    cases hend : item.any Item.isEnd with
    | true =>
      obtain rfl : item = some .ended := by
        rcases item with _ | _ | _ <;> simp_all [Item.isEnd]
      refine ⟨[some .ended], rest.length, ofSession next (taken ++ [.ended]), ?_, hsteps, rfl, ?_⟩
      · rw [receives_of_sawEnd (hsaw'.trans hend)]
        rfl
      · intro _
        simp [ofSession]
    | false =>
      obtain ⟨items, n, l, hresults, hlater, htaken, hends⟩ :=
        ih hkept (hsaw'.trans hend) (taken ++ item.toList)
      refine ⟨item :: items, n, l, ?_, hsteps.trans hlater, ?_, hends⟩
      · rw [hresults]
        rfl
      · rw [htaken, List.append_assoc]
        cases item <;> rfl

/-- **What a session gets from one receive after another.**  Timeouts aside they are the first
objects of the stream, in order and each once, and the end behind all of them. -/
theorem receives_delivery (label : String) (tracing : Bool) (capacity : Nat) (clock : τ)
    {p : Process τ} (horderly : Orderly p.pending) (timeouts : List τ) :
    ∃ (items : List (Option Item)) (n : Nat),
      receives (Session.attach label tracing capacity clock p) timeouts =
        items.map Session.receipt ++ List.replicate n (.error .ended) ∧
      items.reduceOption <+: delivery (some bodyLimit) (chunksOf p.pending).flatten ∧
      (0 < n → items.reduceOption = delivery (some bodyLimit) (chunksOf p.pending).flatten) := by
  obtain ⟨items, n, l, hresults, hsteps, htaken, hends⟩ :=
    receives_steps (s := Session.attach label tracing capacity clock p) horderly rfl timeouts []
  have hv : Valid capacity (delivery (some bodyLimit) (chunksOf p.pending).flatten) l :=
    valid_of_steps hsteps
  rw [List.nil_append] at htaken
  have hprefix := taken_prefix_whole hv
  rw [htaken] at hprefix hends
  exact ⟨items, n, hresults, hprefix, fun hn => eq_delivery_of_mem hprefix (hends hn)⟩

end Latency.Link

import Latency.Proofs.Session.Waiting
/-!
# The wait for a response

What a wait for a response comes to, told from what is to come to the session: the first response to
the request before the deadline, the end of the stream if that is first, and else a timeout at the
deadline.  No message that is passed over moves the deadline.
-/

namespace Latency

/-- A message is the response to a request: it has the id of the request and no method. -/
def RespondsTo (id m : Json) : Prop :=
  (messageId m).equals id = true ∧ m.has "method" = false

instance (id m : Json) : Decidable (RespondsTo id m) :=
  inferInstanceAs (Decidable (_ ∧ _))

theorem answers_iff (id m : Json) : answers id m = true ↔ RespondsTo id m := by
  rw [answers, Bool.and_eq_true, Bool.not_eq_true', RespondsTo]

/-- An item settles the wait for a response: the response, or the end of the stream. -/
def Item.Settles (id : Json) : Item → Prop
  | .message m => RespondsTo id m
  | .ended => True

instance (id : Json) : (item : Item) → Decidable (item.Settles id)
  | .message m => inferInstanceAs (Decidable (RespondsTo id m))
  | .ended => inferInstanceAs (Decidable True)

namespace Session

/-! ## The rounds of the wait -/

section Rounds

variable {s next : Session Rat} {id m : Json} {deadline : Rat}

theorem readUntil_error {e : SessionError} (h : s.clock < deadline)
    (hreceive : s.receive (deadline - s.clock) = (.error e, next)) :
    s.readUntil id deadline = (.error e, next) := by
  rw [readUntil, if_neg (remaining_positive h)]
  split
  · next hfound =>
    obtain ⟨herror, rfl⟩ := Prod.mk.inj (hreceive.symm.trans hfound)
    rw [Except.error.inj herror]
  · next hfound => cases (Prod.mk.inj (hreceive.symm.trans hfound)).1

theorem readUntil_ok (h : s.clock < deadline)
    (hreceive : s.receive (deadline - s.clock) = (.ok m, next)) :
    s.readUntil id deadline =
      if answers id m then (.ok m, next) else (next.observe m).readUntil id deadline := by
  rw [readUntil, if_neg (remaining_positive h)]
  split
  · next hfound => cases (Prod.mk.inj (hreceive.symm.trans hfound)).1
  · next hfound =>
    obtain ⟨hok, rfl⟩ := Prod.mk.inj (hreceive.symm.trans hfound)
    rw [Except.ok.inj hok]

/-- The wait for a response keeps nothing of what it passes over. -/
theorem readUntil_waits (id : Json) (deadline : Rat) :
    Waits deadline (Item.Settles id) (fun (_ : Unit) _ => ()) (fun _ => .error .timeout)
      fun _ s => s.readUntil id deadline where
  settles_ended := trivial
  expired := by
    intro _ s hclock
    rw [readUntil, if_pos (remaining_none hclock)]
  timed_out := by
    intro _ s next hclock _ hreceive
    exact readUntil_error hclock hreceive
  cut_off := by
    intro _ s next hclock hreceive
    exact readUntil_error hclock hreceive
  passed := by
    intro _ s next m hclock hother hreceive
    have hno : ¬ answers id m = true := fun hyes => hother ((answers_iff id m).1 hyes)
    refine ⟨next.observe m, ?_, clock_observe m next, incoming_observe m next⟩
    rw [readUntil_ok hclock hreceive, if_neg hno]

end Rounds

/-! ## What the wait comes to -/

theorem readUntil_responds {τ : Type} [Clock τ] {s : Session τ} {deadline : τ} {id m : Json}
    (h : (s.readUntil id deadline).1 = .ok m) : RespondsTo id m := by
  fun_induction readUntil id deadline s with
  | case1 => cases h
  | case2 => cases h
  | case3 s _ _ m' next _ hanswers =>
    obtain rfl := Except.ok.inj h
    exact (answers_iff id m').1 hanswers
  | case4 _ _ _ _ _ _ _ ih => exact ih h

/-- **A wait for a response takes the first response before its deadline, and nothing else.**  The
deadline is fixed on entry.  A message that is no response is never returned; the response comes
with what was before it consumed and what is behind it left; without one the wait ends at the
deadline, or with the stream if that ends before. -/
theorem readResponse_first (s : Session Rat) (id : Json) (timeout : Rat) (htimeout : 0 < timeout) :
    (∀ m, (s.readResponse id timeout).1 = .ok m → RespondsTo id m) ∧
    (∀ before time m after, s.incoming = before ++ (time, .message m) :: after →
      (∀ x ∈ before, ¬ x.2.Settles id) → RespondsTo id m → time < s.clock + timeout →
      ∃ next, s.readResponse id timeout = (.ok m, next) ∧ next.clock = time ∧
        next.incoming = after) ∧
    ((∀ x ∈ s.incoming, x.1 ≤ s.clock + timeout → ¬ x.2.Settles id) →
      ∃ passed next, s.readResponse id timeout = (.error .timeout, next) ∧
        next.clock = s.clock + timeout ∧ s.incoming = passed ++ next.incoming ∧
        (∀ x ∈ passed, x.1 ≤ s.clock + timeout) ∧
        ∀ x ∈ next.incoming, s.clock + timeout ≤ x.1) ∧
    (∀ before time after, s.incoming = before ++ (time, .ended) :: after →
      (∀ x ∈ before, ¬ x.2.Settles id) → time < s.clock + timeout →
      ∃ next, s.readResponse id timeout = (.error .ended, next) ∧ next.clock = time) := by
  have hwait : s.readResponse id timeout = s.readUntil id (s.clock + timeout) := by
    rw [readResponse, if_pos (Clock.fits_rat timeout), Clock.add_rat]
  have hclock : s.clock < s.clock + timeout := by linarith
  have hwaits := readUntil_waits id (s.clock + timeout)
  rw [hwait]
  refine ⟨?_, ?_, ?_, ?_⟩
  · intro m hm
    exact readUntil_responds hm
  · intro before time m after hincoming hother hresponds htime
    obtain ⟨later, next, hsame, hlater, hreceive, hnext⟩ :=
      hwaits.reach () hclock hincoming hother htime
    refine ⟨next, ?_, hnext⟩
    rw [hsame, readUntil_ok hlater hreceive, if_pos ((answers_iff id m).2 hresponds)]
  · intro hother
    obtain ⟨passed, next, hresult, hnext, hsplit, hpassed⟩ := hwaits.lasts () hclock.le hother
    refine ⟨passed, next, hresult, hnext, hsplit, hpassed, ?_⟩
    intro x hx
    exact hnext ▸ clock_le_of_mem_incoming hx
  · intro before time after hincoming hother htime
    exact hwaits.ended () hclock hincoming hother htime

def crossedReplies : Session Rat :=
  attach "server" false 1 0 (Process.launch
    { out := [⟨1, .message (.obj [("id", .int 7)])⟩,
        ⟨1, .message (.obj [("id", .int 1), ("method", .str "ask")])⟩,
        ⟨2, .message (.obj [("id", .bool true)])⟩, ⟨2, .endOutput⟩] }
    1 [] (.each []) [] 0)

theorem readResponse_first_crossed :
    ∃ m next, crossedReplies.readResponse (.int 1) 3 = (.ok m, next) ∧
      RespondsTo (.int 1) m ∧ next.clock = 2 ∧ next.incoming.length = 1 := by
  have hitems : crossedReplies.incoming.map
      (fun x => (x.1, decide (x.2.Settles (.int 1)), x.2.isEnd)) =
        [(1, false, false), (1, false, false), (2, true, false), (2, true, true)] := by
    decide +kernel
  simp only [List.map_eq_cons_iff, List.map_eq_nil_iff, Prod.mk.injEq, decide_eq_false_iff_not,
    decide_eq_true_eq] at hitems
  obtain ⟨x, _, hsplit, ⟨-, hx, -⟩, y, _, rfl, ⟨-, hy, -⟩, ⟨time, item⟩, _, rfl,
    ⟨rfl, hitem, hmessage⟩, last, _, rfl, -, rfl⟩ := hitems
  cases item with
  | ended => cases hmessage
  | message m =>
    obtain ⟨-, hfound, -, -⟩ := readResponse_first crossedReplies (.int 1) 3 (by decide)
    obtain ⟨next, hresult, hclock, hleft⟩ :=
      hfound [x, y] 2 m [last] hsplit (by simp [hx, hy]) hitem (by decide +kernel)
    exact ⟨m, next, hresult, hitem, hclock, by rw [hleft]; rfl⟩

end Session

end Latency

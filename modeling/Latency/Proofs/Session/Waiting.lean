import Latency.Session.Wait
import Latency.Proofs.Session.Incoming
/-!
# Waiting until a deadline

Both waits of a session take messages one by one until one settles them or their deadline has
passed.  `Waits` says what a round of such a loop does with what a receive gives it.  What the whole
loop does follows from that: it passes over all that does not settle it (`Waits.pass_all`), fails
with the end of the stream (`Waits.ended`), and else lasts exactly until its deadline, however much
it passes over (`Waits.lasts`).
-/

namespace Latency.Session

/-! ## Messages that nobody waits for -/

section Observe

variable {τ : Type} [Clock τ]

omit [Clock τ] in
theorem observe_eq (m : Json) (s : Session τ) : ∃ logs, s.observe m = { s with logs := logs } := by
  unfold observe
  split
  · exact ⟨_, rfl⟩
  · exact ⟨s.logs, rfl⟩

omit [Clock τ] in
theorem clock_observe (m : Json) (s : Session τ) : (s.observe m).clock = s.clock := by
  obtain ⟨logs, hlogs⟩ := observe_eq m s
  rw [hlogs]

theorem incoming_observe (m : Json) (s : Session τ) : (s.observe m).incoming = s.incoming := by
  obtain ⟨logs, hlogs⟩ := observe_eq m s
  rw [hlogs]
  rfl

end Observe

/-! ## What is left of the time -/

theorem remaining_positive {s : Session Rat} {deadline : Rat} (h : s.clock < deadline) :
    ¬ Clock.upTo (Clock.sub deadline s.clock) Clock.zero = true := by
  rw [Clock.upTo_rat, Clock.sub_rat, Clock.zero_rat]
  linarith

theorem remaining_none {s : Session Rat} {deadline : Rat} (h : deadline ≤ s.clock) :
    Clock.upTo (Clock.sub deadline s.clock) Clock.zero = true := by
  rw [Clock.upTo_rat, Clock.sub_rat, Clock.zero_rat]
  linarith

theorem clock_add_remaining (s : Session Rat) (deadline : Rat) :
    s.clock + (deadline - s.clock) = deadline :=
  add_sub_cancel s.clock deadline

/-! ## Loops with a deadline -/

/-- What the rounds of a loop make of their receives: `settles` tells which items end it, `note`
what it keeps of a message that it passes over, and `expire` its result at the deadline. -/
structure Waits {σ α : Type} (deadline : Rat) (settles : Item → Prop) (note : σ → Rat × Item → σ)
    (expire : σ → Except SessionError α)
    (loop : σ → Session Rat → Except SessionError α × Session Rat) : Prop where
  settles_ended : settles .ended
  expired : ∀ kept s, deadline ≤ s.clock → loop kept s = (expire kept, s)
  timed_out : ∀ kept s next, s.clock < deadline → next.clock = deadline →
    s.receive (deadline - s.clock) = (.error .timeout, next) → loop kept s = (expire kept, next)
  cut_off : ∀ kept s next, s.clock < deadline →
    s.receive (deadline - s.clock) = (.error .ended, next) → loop kept s = (.error .ended, next)
  passed : ∀ kept s next m, s.clock < deadline → ¬ settles (.message m) →
    s.receive (deadline - s.clock) = (.ok m, next) →
    ∃ later, loop kept s = loop (note kept (next.clock, .message m)) later ∧
      later.clock = next.clock ∧ later.incoming = next.incoming

namespace Waits

variable {σ α : Type} {deadline : Rat} {settles : Item → Prop} {note : σ → Rat × Item → σ}
  {expire : σ → Except SessionError α}
  {loop : σ → Session Rat → Except SessionError α × Session Rat} {s : Session Rat}

theorem pass_one (hw : Waits deadline settles note expire loop) (kept : σ) {x : Rat × Item}
    {rest : List (Rat × Item)} (hclock : s.clock < deadline) (h : s.incoming = x :: rest)
    (hother : ¬ settles x.2) (htime : x.1 ≤ deadline) :
    ∃ later, loop kept s = loop (note kept x) later ∧ later.clock = x.1 ∧
      later.incoming = rest := by
  obtain ⟨time, m | _⟩ := x
  · have hremaining := clock_add_remaining s deadline
    obtain ⟨next, hreceive, hnext, hrest⟩ := receive_message h (sub_nonneg.2 hclock.le)
      (hremaining.symm ▸ htime)
    obtain ⟨later, hsame, hlater, hleft⟩ := hw.passed kept s next m hclock hother hreceive
    rw [hnext] at hsame hlater
    exact ⟨later, hsame, hlater, hleft.trans hrest⟩
  · exact absurd hw.settles_ended hother

/-- All that comes before the deadline and does not settle the wait is taken, one by one. -/
theorem pass_all (hw : Waits deadline settles note expire loop) (kept : σ)
    {before rest : List (Rat × Item)} (hclock : s.clock < deadline)
    (h : s.incoming = before ++ rest) (hother : ∀ x ∈ before, ¬ settles x.2)
    (htime : ∀ x ∈ before, x.1 < deadline) :
    ∃ later, loop kept s = loop (before.foldl note kept) later ∧ later.clock < deadline ∧
      later.incoming = rest := by
  induction before generalizing s kept with
  | nil => exact ⟨s, rfl, hclock, h⟩
  | cons x before ih =>
    obtain ⟨hfirst, hothers⟩ := List.forall_mem_cons.1 hother
    obtain ⟨hearly, hearlier⟩ := List.forall_mem_cons.1 htime
    obtain ⟨between, hsame, hbetween, hrest⟩ := hw.pass_one kept hclock h hfirst hearly.le
    obtain ⟨later, hend, hlater⟩ := ih (note kept x) (hbetween.symm ▸ hearly) hrest hothers hearlier
    exact ⟨later, hsame.trans hend, hlater⟩

theorem reach (hw : Waits deadline settles note expire loop) (kept : σ) {m : Json} {time : Rat}
    {before after : List (Rat × Item)} (hclock : s.clock < deadline)
    (h : s.incoming = before ++ (time, .message m) :: after)
    (hother : ∀ x ∈ before, ¬ settles x.2) (htime : time < deadline) :
    ∃ later next, loop kept s = loop (before.foldl note kept) later ∧ later.clock < deadline ∧
      later.receive (deadline - later.clock) = (.ok m, next) ∧ next.clock = time ∧
      next.incoming = after := by
  obtain ⟨later, hsame, hlater, hrest⟩ :=
    hw.pass_all kept hclock h hother (incoming_early h htime)
  have hremaining := clock_add_remaining later deadline
  obtain ⟨next, hreceive, hnext, hafter⟩ := receive_message hrest (sub_nonneg.2 hlater.le)
    (hremaining.symm ▸ htime.le)
  exact ⟨later, next, hsame, hlater, hreceive, hnext, hafter⟩

theorem ended (hw : Waits deadline settles note expire loop) (kept : σ) {time : Rat}
    {before after : List (Rat × Item)} (hclock : s.clock < deadline)
    (h : s.incoming = before ++ (time, .ended) :: after)
    (hother : ∀ x ∈ before, ¬ settles x.2) (htime : time < deadline) :
    ∃ next, loop kept s = (.error .ended, next) ∧ next.clock = time := by
  obtain ⟨later, hsame, hlater, hrest⟩ :=
    hw.pass_all kept hclock h hother (incoming_early h htime)
  have hremaining := clock_add_remaining later deadline
  obtain ⟨next, hreceive, hnext, -⟩ := receive_ended hrest (sub_nonneg.2 hlater.le)
    (hremaining.symm ▸ htime.le)
  exact ⟨next, hsame.trans (hw.cut_off _ later next hlater hreceive), hnext⟩

theorem lasts_idle (hw : Waits deadline settles note expire loop) (kept : σ)
    (hclock : s.clock ≤ deadline)
    (hlate : s.clock < deadline → ∀ x ∈ s.incoming, deadline < x.1) :
    ∃ next, loop kept s = (expire kept, next) ∧ next.clock = deadline ∧
      next.incoming = s.incoming := by
  rcases hclock.lt_or_eq with hlt | heq
  · have hremaining := clock_add_remaining s deadline
    obtain ⟨next, hreceive, hnext, hsame⟩ := receive_nothing (sub_nonneg.2 hlt.le)
      (hremaining.symm ▸ hlate hlt)
    rw [hremaining] at hnext
    exact ⟨next, hw.timed_out kept s next hlt hnext hreceive, hnext, hsame⟩
  · exact ⟨s, hw.expired kept s heq.ge, heq, rfl⟩

/-- When nothing settles the wait up to the deadline, it lasts until then.  What it passed over is
gone, and the rest is still to come. -/
theorem lasts (hw : Waits deadline settles note expire loop) (kept : σ)
    (hclock : s.clock ≤ deadline) (hother : ∀ x ∈ s.incoming, x.1 ≤ deadline → ¬ settles x.2) :
    ∃ before next, loop kept s = (expire (before.foldl note kept), next) ∧
      next.clock = deadline ∧ s.incoming = before ++ next.incoming ∧
      ∀ x ∈ before, x.1 ≤ deadline := by
  generalize hitems : s.incoming = items at hother
  induction items generalizing s kept with
  | nil =>
    obtain ⟨next, hresult, hnext, hsame⟩ := hw.lasts_idle kept hclock (by simp [hitems])
    exact ⟨[], next, hresult, hnext, (hsame.trans hitems).symm, by simp⟩
  | cons x items ih =>
    by_cases htaken : s.clock < deadline ∧ x.1 ≤ deadline
    · obtain ⟨hlt, htime⟩ := htaken
      obtain ⟨hfirst, hothers⟩ := List.forall_mem_cons.1 hother
      obtain ⟨later, hsame, hlater, hrest⟩ := hw.pass_one kept hlt hitems (hfirst htime) htime
      obtain ⟨before, next, hresult, hnext, hsplit, hbefore⟩ :=
        ih (note kept x) (hlater.symm ▸ htime) hrest hothers
      refine ⟨x :: before, next, hsame.trans hresult, hnext, ?_, ?_⟩
      · rw [List.cons_append, hsplit]
      · exact List.forall_mem_cons.2 ⟨htime, hbefore⟩
    · have hlate (hlt : s.clock < deadline) : ∀ y ∈ s.incoming, deadline < y.1 := by
        have htime : deadline < x.1 := not_le.1 fun hle => htaken ⟨hlt, hle⟩
        exact incoming_late hitems htime
      obtain ⟨next, hresult, hnext, hsame⟩ := hw.lasts_idle kept hclock hlate
      exact ⟨[], next, hresult, hnext, (hsame.trans hitems).symm, by simp⟩

end Waits

end Latency.Session

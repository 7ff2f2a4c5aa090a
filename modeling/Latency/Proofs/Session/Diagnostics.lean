import Mathlib.Data.List.Basic
import Mathlib.Tactic.NormNum
import Latency.Proofs.Session.Waiting
/-!
# The wait for diagnostics

A wait for diagnostics ends with the first message that lists some.  Messages that publish an empty
list do not end it, but at the deadline the last of them is the result, with the time at which that
one came; the end of the stream fails even when there were such messages.
-/

namespace Latency

/-- A message publishes diagnostics, whatever it lists. -/
def Publishes (m : Json) : Prop :=
  m.get? "method" = some (.str publishDiagnostics)

def listedDiagnostics (m : Json) : List Json :=
  match (m.get? "params").bind (·.get? "diagnostics") with
  | some (.arr listed) => listed
  | _ => []

theorem diagnosticsCount?_publishes {m : Json} (h : Publishes m) :
    diagnosticsCount? m = some (listedDiagnostics m).length := by
  have hmethod : m.get? "method" = some (.str publishDiagnostics) := h
  rw [diagnosticsCount?, listedDiagnostics, hmethod]
  simp only [if_true]
  generalize (m.get? "params").bind (·.get? "diagnostics") = found
  rcases found with _ | (_ | _ | _ | _ | _ | _) <;> rfl

theorem diagnosticsCount?_other {m : Json} (h : ¬ Publishes m) : diagnosticsCount? m = none := by
  unfold diagnosticsCount?
  split
  · next method hmethod =>
    have hother : method ≠ publishDiagnostics := by
      rintro rfl
      exact h hmethod
    rw [if_neg hother]
  · rfl

theorem isSome_diagnosticsCount? (m : Json) :
    (diagnosticsCount? m).isSome = true ↔ Publishes m := by
  by_cases h : Publishes m
  · simp [diagnosticsCount?_publishes h, h]
  · simp [diagnosticsCount?_other h, h]

instance (m : Json) : Decidable (Publishes m) :=
  decidable_of_iff _ (isSome_diagnosticsCount? m)

def Item.Publishes : Item → Prop
  | .message m => Latency.Publishes m
  | .ended => False

instance : (item : Item) → Decidable item.Publishes
  | .message m => inferInstanceAs (Decidable (Latency.Publishes m))
  | .ended => inferInstanceAs (Decidable False)

/-- An item settles the wait for diagnostics: a message that lists some, or the end of the stream. -/
def Item.Converges : Item → Prop
  | .message m => Latency.Publishes m ∧ listedDiagnostics m ≠ []
  | .ended => True

instance : (item : Item) → Decidable item.Converges
  | .message m => inferInstanceAs (Decidable (Latency.Publishes m ∧ ¬ listedDiagnostics m = []))
  | .ended => inferInstanceAs (Decidable True)

namespace Session

/-! ## The rounds of the wait -/

section Rounds

variable {s next : Session Rat} {m : Json} {start deadline : Rat} {retries : Nat}
  {last : Option (Diagnostics Rat)}

theorem diagnosticsUntil_expired (h : deadline ≤ s.clock) :
    s.diagnosticsUntil start deadline retries last = (atDeadline last, s) := by
  rw [diagnosticsUntil, if_pos (remaining_none h)]

theorem diagnosticsUntil_timeout (h : s.clock < deadline) (hnext : next.clock = deadline)
    (hreceive : s.receive (deadline - s.clock) = (.error .timeout, next)) :
    s.diagnosticsUntil start deadline retries last = (atDeadline last, next) := by
  have hexpired (n : Nat) :
      next.diagnosticsUntil start deadline n last = (atDeadline last, next) :=
    diagnosticsUntil_expired hnext.ge
  rw [diagnosticsUntil, if_neg (remaining_positive h)]
  split
  · next hfound =>
    obtain ⟨-, rfl⟩ := Prod.mk.inj (hreceive.symm.trans hfound)
    cases retries with
    | zero => rfl
    | succ n => exact hexpired n
  · next hother hfound =>
    obtain ⟨herror, -⟩ := Prod.mk.inj (hreceive.symm.trans hfound)
    exact absurd (Except.error.inj herror).symm hother
  · next hfound => cases (Prod.mk.inj (hreceive.symm.trans hfound)).1

theorem diagnosticsUntil_ended (h : s.clock < deadline)
    (hreceive : s.receive (deadline - s.clock) = (.error .ended, next)) :
    s.diagnosticsUntil start deadline retries last = (.error .ended, next) := by
  rw [diagnosticsUntil, if_neg (remaining_positive h)]
  split
  · next hfound => cases (Prod.mk.inj (hreceive.symm.trans hfound)).1
  · next hfound =>
    obtain ⟨herror, rfl⟩ := Prod.mk.inj (hreceive.symm.trans hfound)
    rw [Except.error.inj herror]
  · next hfound => cases (Prod.mk.inj (hreceive.symm.trans hfound)).1

theorem diagnosticsUntil_ok (h : s.clock < deadline)
    (hreceive : s.receive (deadline - s.clock) = (.ok m, next)) :
    s.diagnosticsUntil start deadline retries last =
      match diagnosticsCount? m with
      | none => (next.observe m).diagnosticsUntil start deadline retries last
      | some count =>
        let info : Diagnostics Rat := ⟨count, Clock.elapsed start next.clock, m⟩
        if 0 < count then (.ok info, next)
        else next.diagnosticsUntil start deadline retries (some info) := by
  rw [diagnosticsUntil, if_neg (remaining_positive h)]
  split
  · next hfound => cases (Prod.mk.inj (hreceive.symm.trans hfound)).1
  · next hfound => cases (Prod.mk.inj (hreceive.symm.trans hfound)).1
  · next hfound =>
    obtain ⟨hok, rfl⟩ := Prod.mk.inj (hreceive.symm.trans hfound)
    obtain rfl := Except.ok.inj hok
    rfl

def lastPublished (start : Rat) (last : Option (Diagnostics Rat)) :
    Rat × Item → Option (Diagnostics Rat)
  | (time, .message m) =>
    if Publishes m then some ⟨0, (time - start) * 1000, m⟩ else last
  | (_, .ended) => last

theorem diagnosticsUntil_waits (start deadline : Rat) (retries : Nat) :
    Waits deadline Item.Converges (lastPublished start) atDeadline
      fun last s => s.diagnosticsUntil start deadline retries last where
  settles_ended := trivial
  expired := by
    intro last s hclock
    exact diagnosticsUntil_expired hclock
  timed_out := by
    intro last s next hclock hnext hreceive
    exact diagnosticsUntil_timeout hclock hnext hreceive
  cut_off := by
    intro last s next hclock hreceive
    exact diagnosticsUntil_ended hclock hreceive
  passed := by
    intro last s next m hclock hother hreceive
    simp only [diagnosticsUntil_ok hclock hreceive]
    by_cases hpublishes : Publishes m
    · have hempty : listedDiagnostics m = [] := by
        by_contra hlists
        exact hother ⟨hpublishes, hlists⟩
      refine ⟨next, ?_, rfl, rfl⟩
      rw [diagnosticsCount?_publishes hpublishes, hempty]
      simp [lastPublished, hpublishes, Clock.elapsed_rat]
    · refine ⟨next.observe m, ?_, clock_observe m next, incoming_observe m next⟩
      rw [diagnosticsCount?_other hpublishes]
      simp [lastPublished, hpublishes]

end Rounds

/-! ## The last diagnostics seen -/

theorem lastPublished_foldl_none {start : Rat} {last : Option (Diagnostics Rat)}
    {items : List (Rat × Item)} (h : ∀ x ∈ items, ¬ x.2.Publishes) :
    items.foldl (lastPublished start) last = last := by
  induction items with
  | nil => rfl
  | cons x items ih =>
    obtain ⟨hfirst, hothers⟩ := List.forall_mem_cons.1 h
    have hkept : lastPublished start last x = last := by
      obtain ⟨time, m | _⟩ := x
      · exact if_neg hfirst
      · rfl
    rw [List.foldl_cons, hkept, ih hothers]

theorem lastPublished_foldl_some {start time : Rat} {last : Option (Diagnostics Rat)} {m : Json}
    {front back : List (Rat × Item)} (hm : Publishes m) (h : ∀ x ∈ back, ¬ x.2.Publishes) :
    (front ++ (time, .message m) :: back).foldl (lastPublished start) last =
      some ⟨0, (time - start) * 1000, m⟩ := by
  rw [List.foldl_append, List.foldl_cons, lastPublished_foldl_none h]
  exact if_pos hm

/-! ## What the wait comes to -/

/-- **A wait for diagnostics ends with the first message that lists some.**  The end of the stream
fails; at the deadline the last message that published an empty list is the result, with the time at
which it came, and without one the wait fails. -/
theorem waitForDiagnostics_converges (s : Session Rat) (timeout : Rat) (htimeout : 0 < timeout) :
    (∀ before time m after, s.incoming = before ++ (time, .message m) :: after →
      (∀ x ∈ before, ¬ x.2.Converges) → Publishes m → listedDiagnostics m ≠ [] →
      time < s.clock + timeout →
      ∃ next, s.waitForDiagnostics timeout =
          (.ok ⟨(listedDiagnostics m).length, (time - s.clock) * 1000, m⟩, next) ∧
        next.clock = time ∧ next.incoming = after) ∧
    (∀ before time after, s.incoming = before ++ (time, .ended) :: after →
      (∀ x ∈ before, ¬ x.2.Converges) → time < s.clock + timeout →
      ∃ next, s.waitForDiagnostics timeout = (.error .ended, next) ∧ next.clock = time) ∧
    ((∀ x ∈ s.incoming, x.1 ≤ s.clock + timeout → ¬ x.2.Converges) →
      ∃ passed result next, s.waitForDiagnostics timeout = (result, next) ∧
        next.clock = s.clock + timeout ∧ s.incoming = passed ++ next.incoming ∧
        (∀ x ∈ passed, x.1 ≤ s.clock + timeout) ∧
        (∀ x ∈ next.incoming, s.clock + timeout ≤ x.1) ∧
        (∀ front time m back, passed = front ++ (time, .message m) :: back → Publishes m →
          (∀ x ∈ back, ¬ x.2.Publishes) →
          result = .ok ⟨0, (time - s.clock) * 1000, m⟩) ∧
        ((∀ x ∈ passed, ¬ x.2.Publishes) → result = .error .timeout)) := by
  have hwait : s.waitForDiagnostics timeout =
      s.diagnosticsUntil s.clock (s.clock + timeout) 2 none := by
    rw [waitForDiagnostics, if_pos (Clock.fits_rat timeout), Clock.add_rat]
  have hclock : s.clock < s.clock + timeout := by linarith
  have hwaits := diagnosticsUntil_waits s.clock (s.clock + timeout) 2
  rw [hwait]
  refine ⟨?_, ?_, ?_⟩
  · intro before time m after hincoming hother hpublishes hlists htime
    obtain ⟨later, next, hsame, hlater, hreceive, hnext, hafter⟩ :=
      hwaits.reach none hclock hincoming hother htime
    refine ⟨next, ?_, hnext, hafter⟩
    have hsome : 0 < (listedDiagnostics m).length := List.length_pos_iff.2 hlists
    rw [hsame, diagnosticsUntil_ok hlater hreceive, diagnosticsCount?_publishes hpublishes]
    simp only [if_pos hsome, hnext, Clock.elapsed_rat]
  · intro before time after hincoming hother htime
    exact hwaits.ended none hclock hincoming hother htime
  · intro hother
    obtain ⟨passed, next, hresult, hnext, hsplit, hpassed⟩ := hwaits.lasts none hclock.le hother
    refine ⟨passed, _, next, hresult, hnext, hsplit, hpassed, ?_, ?_, ?_⟩
    · intro x hx
      exact hnext ▸ clock_le_of_mem_incoming hx
    · rintro front time m back rfl hpublishes hback
      rw [lastPublished_foldl_some hpublishes hback, atDeadline]
    · intro hnone
      rw [lastPublished_foldl_none hnone, atDeadline]

def emptyTwice : Session Rat :=
  let publication := notificationMessage publishDiagnostics (.obj [("diagnostics", .arr [])])
  attach "server" false 1 0 (Process.launch
    { out := [⟨1, .message publication⟩, ⟨2, .message publication⟩] } 1 [] (.each []) [] 0)

theorem waitForDiagnostics_converges_emptyTwice :
    ∃ m next, emptyTwice.waitForDiagnostics 3 = (.ok ⟨0, 2000, m⟩, next) ∧ next.clock = 3 := by
  have hitems : emptyTwice.incoming.map
      (fun x => (x.1, decide x.2.Publishes, decide x.2.Converges)) =
        [(1, true, false), (2, true, false)] := by
    decide +kernel
  simp only [List.map_eq_cons_iff, List.map_eq_nil_iff, Prod.mk.injEq, decide_eq_false_iff_not,
    decide_eq_true_eq] at hitems
  obtain ⟨x, _, hsplit, ⟨hfirst, -, hx⟩, ⟨time, item⟩, _, rfl, ⟨rfl, hpublishes, hagain⟩, rfl⟩ :=
    hitems
  have hclock : emptyTwice.clock = 0 := rfl
  have hall (y : Rat × Item) (hy : y ∈ emptyTwice.incoming) :
      y.1 < emptyTwice.clock + 3 ∧ ¬ y.2.Converges := by
    rw [hsplit, List.mem_pair] at hy
    rcases hy with rfl | rfl
    · exact ⟨by rw [hclock, hfirst]; norm_num, hx⟩
    · exact ⟨by rw [hclock]; norm_num, hagain⟩
  obtain ⟨-, -, hlasts⟩ := waitForDiagnostics_converges emptyTwice 3 (by decide)
  obtain ⟨passed, result, next, hresult, hnext, hleft, -, hlate, hlast, -⟩ :=
    hlasts fun y hy _ => (hall y hy).2
  have hnothing : next.incoming = [] := by
    apply List.eq_nil_iff_forall_not_mem.2
    intro y hy
    have hmem : y ∈ emptyTwice.incoming := hleft ▸ List.mem_append_right passed hy
    exact absurd (hlate y hy) (not_le.2 (hall y hmem).1)
  rw [hnothing, List.append_nil, hsplit] at hleft
  cases item with
  | ended => cases hpublishes
  | message m =>
    refine ⟨m, next, ?_, ?_⟩
    · rw [hresult, hlast [x] 2 m [] hleft.symm hpublishes (by simp), hclock]
      norm_num
    · rw [hnext, hclock]
      norm_num

end Session

end Latency

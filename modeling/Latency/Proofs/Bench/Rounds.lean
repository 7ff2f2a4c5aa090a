import Latency.Proofs.Bench.Plan
/-!
# One session after another

A benchmark takes the machine from one session to the next and does nothing to it in between.  So
what composes and holds across each session of a benchmark holds across the benchmark
(`Task.run_across`).
-/

namespace Latency

variable {τ : Type} [Clock τ] {R : Host τ → Host τ → Prop} {server : Server} {b : BenchSettings τ}
  {params : String → String → Json}

/-- A relation between machines that composes. -/
structure Host.Composes (R : Host τ → Host τ → Prop) : Prop where
  refl (h : Host τ) : R h h
  trans {h h' h'' : Host τ} : R h h' → R h' h'' → R h h''

def Task.Across (server : Server) (b : BenchSettings τ) (params : String → String → Json)
    (R : Host τ → Host τ → Prop) (task : Task) : Prop :=
  ∀ {α : Type} {work : Session τ → α × Session τ} {h next : Host τ}
    {result : Except SessionError α},
    (∀ s, (work s).2 = task.after h.files b params s) →
      h.withSession server b.directory b.tracing work = (result, next) → R h next

theorem startRounds_across (hR : Host.Composes R)
    (hsession : Task.Across server b params R .startup) (samples : List (Sample τ)) (i n : Nat)
    (h : Host τ) : R h (startRounds server b samples i n h).2 := by
  have honce {h next : Host τ} {result : Except (Ended τ) τ}
      (hstart : startOnce server b h = (result, next)) : R h next := by
    unfold startOnce at hstart
    split at hstart
    all_goals
      next hwith =>
      obtain ⟨-, rfl⟩ := Prod.mk.inj hstart
      exact hsession (fun s => rfl) hwith
  induction n generalizing samples i h with
  | zero => exact hR.refl h
  | succ n ih =>
    unfold startRounds
    split
    · next hstart => exact honce hstart
    · next finish next hstart => exact hR.trans (honce hstart) (ih _ (i + 1) next)

theorem indexRounds_across (hR : Host.Composes R)
    (hsession : Task.Across server b params R .diagnostics) (samples : List (Sample τ))
    (last : Option (Diagnostics τ)) (memory : Option Int) (i n : Nat) (h : Host τ) :
    R h (indexRounds server b samples last memory i n h).2 := by
  have honce {h next : Host τ} {result : Except (Ended τ) (Indexed τ)}
      (hindex : indexOnce server b h = (result, next)) : R h next := by
    unfold indexOnce at hindex
    split at hindex
    all_goals
      next hwith =>
      obtain ⟨-, rfl⟩ := Prod.mk.inj hindex
      exact hsession (fun s => rfl) hwith
  induction n generalizing samples last memory i h with
  | zero => exact hR.refl h
  | succ n ih =>
    unfold indexRounds
    simp only
    split
    · next hindex => exact honce hindex
    · next r next hindex =>
      have hfirst := honce hindex
      split
      · exact hR.trans hfirst (ih _ _ _ (i + 1) next)
      · exact hR.trans hfirst (ih _ _ _ (i + 1) next)

theorem onSession_across {task : Task} (hsession : task.Across server b params R)
    {work : Session.Ready τ → Session τ → Report τ × Session τ} (h : Host τ)
    (hwork : ∀ s : Session τ,
      (s.prepareAndWork h.files b work).2 = task.after h.files b params s) :
    R h (onSession server b work h).2 := by
  unfold onSession
  split
  · next hwith => exact hsession hwork hwith
  · next hwith => exact hsession hwork hwith

theorem Task.run_across (hR : Host.Composes R) {task : Task}
    (hsession : task.Across server b params R) (h : Host τ) :
    R h (task.run b params server h).2 := by
  cases task with
  | startup => exact startRounds_across hR hsession [] 0 b.total h
  | diagnostics => exact indexRounds_across hR hsession [] none none 0 b.total h
  | requests method => exact onSession_across hsession h fun s => rfl
  | edits method list => exact onSession_across hsession h fun s => rfl

end Latency

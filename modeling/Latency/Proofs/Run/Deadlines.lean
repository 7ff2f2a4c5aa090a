import Latency.Options.Parse
import Latency.Run
import Latency.Proofs.Settings.Bounds
/-!
# The limits of a run

A run measures with settings that a document gives and the command line may change.  Both check them
against the same bounds, and what no option says anything about stays as the document has it.  The
waits get times above zero, unless a time is no number: such a time passes both checks.
-/

namespace Latency

/-- What an option does to a setting: one that is not given leaves it as it was, and one that has a
value replaces it. -/
def Given.Decides {α : Type} (given : Given α) (before after : α) : Prop :=
  (given = .absent → after = before) ∧ ∀ a, given = .value a → after = a

theorem Given.decides_getD {α : Type} (given : Given α) (usual : α) :
    given.Decides usual (given.getD usual) := by
  cases given with
  | absent => exact ⟨fun _ => rfl, by rintro a ⟨⟩⟩
  | void => exact ⟨by rintro ⟨⟩, by rintro a ⟨⟩⟩
  | value a => exact ⟨by rintro ⟨⟩, by rintro _ ⟨⟩; rfl⟩

namespace Settings

/-- What options make of settings: each decides on its own, and what there is no option for is the
same as before. -/
structure Overridden (s : Settings) (o : Options) (s' : Settings) : Prop where
  iterations : o.iterations.Decides s.iterations s'.iterations
  warmup : o.warmup.Decides s.warmup s'.warmup
  timeout : (o.timeout.map .float).Decides s.timeout s'.timeout
  indexTimeout : (o.indexTimeout.map .float).Decides s.indexTimeout s'.indexTimeout
  output : (o.output.map some).Decides s.output s'.output
  others : s' = { s with
    iterations := s'.iterations, warmup := s'.warmup, timeout := s'.timeout
    indexTimeout := s'.indexTimeout, output := s'.output }

theorem overridden {s s' : Settings} {o : Options} (h : s.override o = .ok s') :
    Overridden s o s' := by
  obtain ⟨_, -, h⟩ := bind_ok h
  obtain ⟨_, -, h⟩ := bind_ok h
  obtain ⟨_, -, h⟩ := bind_ok h
  obtain ⟨_, -, h⟩ := bind_ok h
  obtain rfl := Except.ok.inj h
  refine ⟨Given.decides_getD _ _, Given.decides_getD _ _, Given.decides_getD _ _,
    Given.decides_getD _ _, ?_, rfl⟩
  cases o.output with
  | absent => exact ⟨fun _ => rfl, by rintro a ⟨⟩⟩
  | void => exact ⟨by rintro ⟨⟩, by rintro a ⟨⟩⟩
  | value path => exact Given.decides_getD (.value (some path)) s.output

theorem Bounded.benchSettings {s : Settings} (hbounded : Bounded s) {files : Files}
    {directory : Path} {tracing : Bool} {b : BenchSettings Number}
    (h : Run.benchSettings files directory s tracing = .ok b) :
    Clock.before Clock.zero b.timeout = !s.timeout.isNaN ∧
      Clock.before Clock.zero b.indexTimeout = !s.indexTimeout.isNaN := by
  obtain ⟨target, -, h⟩ := bind_ok h
  obtain ⟨timeout, htimeout, h⟩ := bind_ok h
  obtain ⟨indexTimeout, hindexTimeout, h⟩ := bind_ok h
  obtain rfl := Except.ok.inj h
  exact ⟨Number.zero_before_toFloat (mapError_ok htimeout) hbounded.timeout,
    Number.zero_before_toFloat (mapError_ok hindexTimeout) hbounded.indexTimeout⟩

/-- **The limits of a run.**  Settings that are accepted, from the document and from the command
line, are within their bounds.  A time is above zero exactly if it is a number, and then the waits
of the benchmarks get times above zero.  A setting that no option speaks of is the one of the
document. -/
theorem override_within_bounds (v : Value) (s s' : Settings) (o : Options)
    (hvalue : ofValue v = .ok s) (hoptions : s.override o = .ok s') :
    Bounded s' ∧ Overridden s o s' ∧
      ∀ files directory tracing b, Run.benchSettings files directory s' tracing = .ok b →
        Clock.before Clock.zero b.timeout = !s'.timeout.isNaN ∧
          Clock.before Clock.zero b.indexTimeout = !s'.indexTimeout.isNaN := by
  have hbounded : Bounded s' := (bounded_ofValue hvalue).override hoptions
  exact ⟨hbounded, overridden hoptions, fun files directory tracing b => hbounded.benchSettings⟩

section Examples

def acceptedAnd (test : Settings → Bool) (v : Value) (argv : List String) : Bool :=
  (ofValue v).toOption.any fun s =>
    (Options.parse argv).toOption.any fun o => (s.override o).toOption.any test

theorem exists_of_acceptedAnd {test : Settings → Bool} {v : Value} {argv : List String}
    (h : acceptedAnd test v argv = true) :
    ∃ s o s', ofValue v = .ok s ∧ Options.parse argv = .ok o ∧ s.override o = .ok s' ∧
      test s' = true := by
  obtain ⟨s, hvalue, h⟩ := any_toOption.1 h
  obtain ⟨o, hparse, h⟩ := any_toOption.1 h
  obtain ⟨s', hoptions, htest⟩ := any_toOption.1 h
  exact ⟨s, o, s', hvalue, hparse, hoptions, htest⟩

def timedDocument (timeout : Number) : Value :=
  .map [
    (.str "project", .str "."), (.str "file", .str "a.sol"), (.str "servers", .seq []),
    (.str "timeout", .num timeout)]

/-- Times without an end are numbers, and are accepted from both sides. -/
theorem override_within_bounds_endless :
    ∃ s o s', ofValue (timedDocument (.float (1.0 / 0.0))) = .ok s ∧
      Options.parse ["-n", "3", "--index-timeout", "inf"] = .ok o ∧ s.override o = .ok s' ∧
      Bounded s' ∧ Overridden s o s' ∧ Number.less (.int 0) s'.timeout = true ∧
      Number.less (.int 0) s'.indexTimeout = true := by
  have haccepted : acceptedAnd (fun s => !s.timeout.isNaN && !s.indexTimeout.isNaN)
      (timedDocument (.float (1.0 / 0.0))) ["-n", "3", "--index-timeout", "inf"] = true := by
    decide +kernel
  obtain ⟨s, o, s', hvalue, hparse, hoptions, htest⟩ := exists_of_acceptedAnd haccepted
  obtain ⟨hbounded, hoverridden, -⟩ := override_within_bounds _ s s' o hvalue hoptions
  rw [← hbounded.timeout, ← hbounded.indexTimeout, Bool.and_eq_true] at htest
  exact ⟨s, o, s', hvalue, hparse, hoptions, hbounded, hoverridden, htest⟩

/-- What stands for no number is accepted as a time from both sides, and is not above zero. -/
theorem notNumber_passes :
    ∃ s o s', ofValue (timedDocument (.float (0.0 / 0.0))) = .ok s ∧
      Options.parse ["--index-timeout", "nan"] = .ok o ∧ s.override o = .ok s' ∧
      Number.less (.int 0) s'.timeout = false ∧ Number.less (.int 0) s'.indexTimeout = false := by
  have haccepted : acceptedAnd
      (fun s => !Number.less (.int 0) s.timeout && !Number.less (.int 0) s.indexTimeout)
      (timedDocument (.float (0.0 / 0.0))) ["--index-timeout", "nan"] = true := by
    decide +kernel
  obtain ⟨s, o, s', hvalue, hparse, hoptions, htest⟩ := exists_of_acceptedAnd haccepted
  rw [Bool.and_eq_true, Bool.not_eq_true', Bool.not_eq_true'] at htest
  exact ⟨s, o, s', hvalue, hparse, hoptions, htest⟩

end Examples

end Settings

end Latency

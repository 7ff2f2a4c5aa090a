import Latency.Settings.Basic
/-!
# Options

What the command line can set. An option that is given wins over the settings file.
-/

namespace Latency

inductive Given (α : Type) where
  | absent
  /-- The option has the sign `--` for its value, which is the same as no value. -/
  | void
  | value (a : α)
deriving Repr, DecidableEq

namespace Given

variable {α β : Type}

def map (f : α → β) : Given α → Given β
  | .absent => .absent
  | .void => .void
  | .value a => .value (f a)

def getD (usual : α) : Given α → α
  | .value a => a
  | _ => usual

end Given

structure Options where
  benchmarks : List String := []
  /-- The settings file; `none` if the option for it has no value. -/
  config : Option Path := some (Path.ofString "benchmark.yaml")
  iterations : Given Int := .absent
  warmup : Given Int := .absent
  timeout : Given Float := .absent
  indexTimeout : Given Float := .absent
  output : Given Path := .absent
  trace : Bool := false
  verbose : Bool := false
  init : Bool := false
  verify : Bool := false

inductive OptionError where
  | iterations
  | warmup
  | timeout
  | indexTimeout
  /-- There is no value to be checked. This one is not reported as a refusal but breaks the
  run off. -/
  | noValue
deriving Repr, DecidableEq

def OptionError.message : OptionError → String
  | .iterations => "--iterations must be >= 1"
  | .warmup => "--warmup must be >= 0"
  | .timeout => "--timeout must be > 0"
  | .indexTimeout => "--index-timeout must be > 0"
  | .noValue => "an option has no value"

/-- The error, if an option has a value that is refused, or none to be checked. -/
def refuseIf {α : Type} (bad : α → Bool) (error : OptionError) : Given α → Except OptionError Unit
  | .absent => .ok ()
  | .void => .error .noValue
  | .value a => if bad a then .error error else .ok ()

/-- The settings with the options that are given. Times have to be above zero; what is not a number
is not refused. The directory for records is not checked, so an option without a value
leaves none. -/
def Settings.override (s : Settings) (o : Options) : Except OptionError Settings := do
  refuseIf (fun n : Int => decide (n < 1)) .iterations o.iterations
  refuseIf (fun n : Int => decide (n < 0)) .warmup o.warmup
  refuseIf (fun x : Float => x ≤ 0.0) .timeout o.timeout
  refuseIf (fun x : Float => x ≤ 0.0) .indexTimeout o.indexTimeout
  return { s with
    iterations := o.iterations.getD s.iterations
    warmup := o.warmup.getD s.warmup
    timeout := (o.timeout.map .float).getD s.timeout
    indexTimeout := (o.indexTimeout.map .float).getD s.indexTimeout
    output :=
      match o.output with
      | .absent => s.output
      | .void => none
      | .value path => some path }

end Latency

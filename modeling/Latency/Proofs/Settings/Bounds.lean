import Latency.Options.Basic
import Latency.Settings.Read
import Latency.Proofs.Number.Sign
import Latency.Proofs.Results
/-!
# Bounds of settings

Whatever a document says, the settings that are read from it have at least one iteration, and no
negative warm-up, position or response limit; options keep to the same bounds.  Times are above zero
unless they are no numbers: what is not a number passes every limit.
-/

namespace Latency.Settings

structure Bounded (s : Settings) : Prop where
  iterations : 1 ≤ s.iterations
  warmup : 0 ≤ s.warmup
  line : 0 ≤ s.line
  col : 0 ≤ s.col
  responseLimit : 0 ≤ s.responseLimit
  timeout : Number.less (.int 0) s.timeout = !s.timeout.isNaN
  indexTimeout : Number.less (.int 0) s.indexTimeout = !s.indexTimeout.isNaN

/-! ## Numbers of a document -/

theorem number_ok {entries : Entries} {key : String} {usual n : Number} {least : Int}
    {strict : Bool} (h : number entries key usual least strict = .ok n) :
    n.less (.int least) = false ∧ (strict = true → n.equals (.int least) = false) := by
  unfold number at h
  split at h
  · split at h
    · cases h
    · next hbound =>
      obtain rfl := Except.ok.inj h
      rw [Bool.or_eq_true, not_or] at hbound
      refine ⟨Bool.eq_false_iff.2 hbound.1, ?_⟩
      rintro rfl
      exact Bool.eq_false_iff.2 hbound.2
  · cases h

theorem time_ok {entries : Entries} {key : String} {usual n : Number}
    (h : number entries key usual 0 true = .ok n) : Number.less (.int 0) n = !n.isNaN :=
  Number.less_of_not_less (number_ok h).1 ((number_ok h).2 rfl)

theorem integer_ok {entries : Entries} {key : String} {usual least n : Int}
    (h : integer entries key usual least = .ok n) : least ≤ n := by
  obtain ⟨found, hnumber, hint⟩ := bind_ok h
  have hless := (number_ok hnumber).1
  split at hint
  · next m =>
    obtain rfl := Except.ok.inj hint
    have hcompare : compare m least ≠ .lt := by
      simpa [Number.less, Number.compare?] using hless
    exact Int.not_lt.1 fun hlt => hcompare (Std.compare_eq_lt.2 hlt)
  · cases hint

theorem limitOf_ok {v : Value} {limit : Int} (h : limitOf v = .ok limit) : 0 ≤ limit := by
  unfold limitOf at h
  split at h
  · obtain rfl := Except.ok.inj h
    decide
  · split at h
    · obtain rfl := Except.ok.inj h
      decide
    · cases h
  · split at h
    · cases h
    · next hneg =>
      obtain rfl := Except.ok.inj h
      exact Int.not_lt.1 hneg
  · cases h

/-! ## Shown values -/

theorem shown_ok {v : Value} {text : String} (h : shown v = .ok text) : v.display = text := by
  unfold shown Value.display? at h
  split at h
  · next htext =>
    rw [← Except.ok.inj h]
    exact Option.some.inj (Option.ite_none_right_eq_some.1 htext).2
  · cases h

def triggerText : Value → Option String
  | .null => none
  | v => some v.display

theorem triggerText_of_ne_null {v : Value} (h : v ≠ .null) : triggerText v = some v.display := by
  cases v with
  | null => exact absurd rfl h
  | _ => rfl

theorem triggerOf_ok {v : Value} {trigger : Option String}
    (h : methodOf.triggerOf v = .ok trigger) : trigger = triggerText v := by
  unfold methodOf.triggerOf at h
  split at h
  · exact (Except.ok.inj h).symm
  · next hnull =>
    obtain ⟨text, htext, rfl⟩ := map_ok h
    rw [triggerText_of_ne_null hnull, shown_ok htext]

/-- The table of methods with a trigger for the whole document: it is that of completion, unless
this has its own. -/
def withTrigger (v : Value) (table : MethodTable) : MethodTable :=
  let own := (table.lookup completionName).getD {}
  match triggerText v, own.trigger with
  | some text, none => Json.put completionName { own with trigger := some text } table
  | _, _ => table

theorem addTrigger_ok {v : Value} {table added : MethodTable} (h : addTrigger v table = .ok added) :
    added = withTrigger v table := by
  unfold addTrigger at h
  unfold withTrigger
  split at h
  · exact (Except.ok.inj h).symm
  · next hnull =>
    simp only at h
    split at h
    · next hown =>
      simp only [triggerText_of_ne_null hnull, hown]
      exact (Except.ok.inj h).symm
    · next hown =>
      obtain ⟨text, htext, h⟩ := bind_ok h
      simp only [triggerText_of_ne_null hnull, hown, shown_ok htext]
      exact (Except.ok.inj h).symm

/-! ## The document -/

structure Reads (entries : Entries) (s : Settings) : Prop where
  line : integer entries "line" 102 0 = .ok s.line
  col : integer entries "col" 15 0 = .ok s.col
  iterations : integer entries "iterations" 10 1 = .ok s.iterations
  warmup : integer entries "warmup" 2 0 = .ok s.warmup
  timeout : number entries "timeout" (.int 10) 0 true = .ok s.timeout
  indexTimeout : number entries "index_timeout" (.int 15) 0 true = .ok s.indexTimeout
  output : ∃ path, outputPath (Value.field entries "output") = .ok path
  responseLimit : limitOf (Value.field entries "response") = .ok s.responseLimit
  methods : ∃ table, methodTable (Value.field entries "methods") = .ok table ∧
    s.methods = withTrigger (Value.field entries "trigger_character") table

theorem reads_of_ofEntries {entries : Entries} {s : Settings} (h : ofEntries entries = .ok s) :
    Reads entries s := by
  unfold ofEntries at h
  split at h
  · cases h
  split at h
  · cases h
  simp only at h
  split at h
  case h_2 =>
    obtain ⟨_, hthrow, -⟩ := bind_ok h
    cases hthrow
  obtain ⟨items, -, h⟩ := bind_ok h
  obtain ⟨servers, -, h⟩ := bind_ok h
  -- The benchmarks are a list, or are left out.
  repeat' split at h
  case isTrue =>
    obtain ⟨_, hthrow, -⟩ := bind_ok h
    cases hthrow
  all_goals
    obtain ⟨names, -, h⟩ := bind_ok h
    obtain ⟨rows, hrows, h⟩ := bind_ok h
    obtain ⟨table, htable, h⟩ := bind_ok h
    obtain ⟨line, hline, h⟩ := bind_ok h
    obtain ⟨col, hcol, h⟩ := bind_ok h
    obtain ⟨iterations, hiterations, h⟩ := bind_ok h
    obtain ⟨warmup, hwarmup, h⟩ := bind_ok h
    obtain ⟨timeout, htimeout, h⟩ := bind_ok h
    obtain ⟨indexTimeout, hindexTimeout, h⟩ := bind_ok h
    obtain ⟨output, houtput, h⟩ := bind_ok h
    obtain ⟨benchmarks, -, h⟩ := bind_ok h
    obtain ⟨limit, hlimit, h⟩ := bind_ok h
    obtain ⟨languageId, -, h⟩ := bind_ok h
    obtain rfl := Except.ok.inj h
    exact ⟨hline, hcol, hiterations, hwarmup, htimeout, hindexTimeout,
      ⟨output, houtput⟩, hlimit, ⟨rows, hrows, addTrigger_ok htable⟩⟩

theorem Reads.bounded {entries : Entries} {s : Settings} (h : Reads entries s) : Bounded s where
  iterations := integer_ok h.iterations
  warmup := integer_ok h.warmup
  line := integer_ok h.line
  col := integer_ok h.col
  responseLimit := limitOf_ok h.responseLimit
  timeout := time_ok h.timeout
  indexTimeout := time_ok h.indexTimeout

theorem bounded_ofValue {v : Value} {s : Settings} (h : ofValue v = .ok s) : Bounded s := by
  unfold ofValue at h
  split at h
  · exact (reads_of_ofEntries h).bounded
  · cases h

/-! ## Options -/

theorem refuseIf_value {α : Type} {bad : α → Bool} {error : OptionError} {a : α} {u : Unit}
    (h : refuseIf bad error (.value a) = .ok u) : bad a = false := by
  cases hbad : bad a with
  | false => rfl
  | true =>
    rw [refuseIf, if_pos hbad] at h
    cases h

theorem getD_of_refuseIf {least usual : Int} {error : OptionError} {given : Given Int} {u : Unit}
    (h : refuseIf (fun n => decide (n < least)) error given = .ok u) (husual : least ≤ usual) :
    least ≤ given.getD usual := by
  cases given with
  | absent => exact husual
  | void => cases h
  | value n => exact Int.not_lt.1 (of_decide_eq_false (refuseIf_value h))

/-- A time on the command line that is not refused leaves one that is above zero or no number. -/
theorem time_getD_of_refuseIf {usual : Number} {error : OptionError} {given : Given Float}
    {u : Unit} (h : refuseIf (fun x => x ≤ 0.0) error given = .ok u)
    (husual : Number.less (.int 0) usual = !usual.isNaN) :
    Number.less (.int 0) ((given.map .float).getD usual) =
      !((given.map .float).getD usual).isNaN := by
  cases given with
  | absent => exact husual
  | void => cases h
  | value x => exact Number.less_of_not_le_zero (of_decide_eq_false (refuseIf_value h))

theorem Bounded.override {s s' : Settings} {o : Options} (hbounded : Bounded s)
    (h : s.override o = .ok s') : Bounded s' := by
  obtain ⟨_, hiterations, h⟩ := bind_ok h
  obtain ⟨_, hwarmup, h⟩ := bind_ok h
  obtain ⟨_, htimeout, h⟩ := bind_ok h
  obtain ⟨_, hindexTimeout, h⟩ := bind_ok h
  obtain rfl := Except.ok.inj h
  exact {
    hbounded with
    iterations := getD_of_refuseIf hiterations hbounded.iterations
    warmup := getD_of_refuseIf hwarmup hbounded.warmup
    timeout := time_getD_of_refuseIf htimeout hbounded.timeout
    indexTimeout := time_getD_of_refuseIf hindexTimeout hbounded.indexTimeout }

end Latency.Settings

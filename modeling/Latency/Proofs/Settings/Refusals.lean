import Latency.Command
import Latency.Proofs.Settings.Bounds
/-!
# Refused settings

A document is read or refused, whatever it says.  Every check gives a reason that is reported, but
for two: the one of the output directory, and that a value with a very long integer in it cannot be
shown.  A command ends with status 1 on what is reported.
-/

namespace Latency

/-! ## Values that cannot be shown -/

namespace Value

/-- A value that stands somewhere in another. -/
inductive StandsIn (x : Value) : Value → Prop
  | self : StandsIn x x
  | item {items : List Value} {label : Option Label} {v : Value} : v ∈ items →
    StandsIn x v → StandsIn x (.seq items label)
  | first {a b : Value} {label : Option Label} : StandsIn x a → StandsIn x (.pair a b label)
  | second {a b : Value} {label : Option Label} : StandsIn x b → StandsIn x (.pair a b label)
  | key {entries : List (Value × Value)} {label : Option Label} {entry : Value × Value} :
    entry ∈ entries → StandsIn x entry.1 → StandsIn x (.map entries label)
  | value {entries : List (Value × Value)} {label : Option Label} {entry : Value × Value} :
    entry ∈ entries → StandsIn x entry.2 → StandsIn x (.map entries label)
  | member {items : List Value} {v : Value} : v ∈ items → StandsIn x v → StandsIn x (.set items)

/-- A value with an integer in it that has more than 4300 digits. -/
def HoldsLong (v : Value) : Prop :=
  ∃ n : Int, 4300 < (Nat.toDigits 10 n.natAbs).length ∧ StandsIn (.num (.int n)) v

theorem HoldsLong.of_item {items : List Value} {label : Option Label} {v : Value}
    (hmem : v ∈ items) (h : v.HoldsLong) : HoldsLong (.seq items label) := by
  obtain ⟨n, hlong, hstands⟩ := h
  exact ⟨n, hlong, .item hmem hstands⟩

theorem HoldsLong.of_key {entries : List (Value × Value)} {label : Option Label}
    {entry : Value × Value} (hmem : entry ∈ entries) (h : entry.1.HoldsLong) :
    HoldsLong (.map entries label) := by
  obtain ⟨n, hlong, hstands⟩ := h
  exact ⟨n, hlong, .key hmem hstands⟩

theorem HoldsLong.of_value {entries : List (Value × Value)} {label : Option Label}
    {entry : Value × Value} (hmem : entry ∈ entries) (h : entry.2.HoldsLong) :
    HoldsLong (.map entries label) := by
  obtain ⟨n, hlong, hstands⟩ := h
  exact ⟨n, hlong, .value hmem hstands⟩

theorem not_holdsLong_null : ¬ HoldsLong .null := by
  rintro ⟨n, -, hstands⟩
  cases hstands

theorem exists_mem_of_lookupText {key : String} {entries : List (Value × Value)} {v : Value}
    (h : lookupText key entries = some v) : ∃ entry ∈ entries, entry.2 = v := by
  fun_induction lookupText key entries with
  | case1 => cases h
  | case2 v' rest => exact ⟨_, List.mem_cons_self, Option.some.inj h⟩
  | case3 k v' rest hne ih =>
    obtain ⟨entry, hmem, heq⟩ := ih h
    exact ⟨entry, List.mem_cons_of_mem _ hmem, heq⟩
  | case4 entry rest _ ih =>
    obtain ⟨entry', hmem, heq⟩ := ih h
    exact ⟨entry', List.mem_cons_of_mem _ hmem, heq⟩

theorem HoldsLong.of_field {entries : List (Value × Value)} {key : String} (label : Option Label)
    (h : (field entries key).HoldsLong) : HoldsLong (.map entries label) := by
  unfold field at h
  cases hlookup : lookupText key entries with
  | none =>
    rw [hlookup] at h
    exact absurd h not_holdsLong_null
  | some v =>
    rw [hlookup] at h
    obtain ⟨entry, hmem, rfl⟩ := exists_mem_of_lookupText hlookup
    exact .of_value hmem h

mutual

theorem holdsLong_of_not_isWritableIn (shown : List Label) :
    ∀ v : Value, isWritableIn shown v = false → v.HoldsLong
  | .num (.int n), h => by
    simp only [isWritableIn, Number.isWritable, decide_eq_false_iff_not, Nat.not_le] at h
    exact ⟨n, h, .self⟩
  | .seq items label, h => by
    simp only [isWritableIn, Bool.or_eq_false_iff] at h
    obtain ⟨v, hmem, hlong⟩ := exists_holdsLong_of_not_areWritable _ items h.2
    exact .of_item hmem hlong
  | .pair a b label, h => by
    simp only [isWritableIn, Bool.or_eq_false_iff, Bool.and_eq_false_iff] at h
    rcases h.2 with ha | hb
    · obtain ⟨n, hlong, hstands⟩ := holdsLong_of_not_isWritableIn _ a ha
      exact ⟨n, hlong, .first hstands⟩
    · obtain ⟨n, hlong, hstands⟩ := holdsLong_of_not_isWritableIn _ b hb
      exact ⟨n, hlong, .second hstands⟩
  | .map entries label, h => by
    simp only [isWritableIn, Bool.or_eq_false_iff] at h
    obtain ⟨entry, hmem, hkey | hvalue⟩ := exists_holdsLong_of_not_entriesWritable _ entries h.2
    · exact .of_key hmem hkey
    · exact .of_value hmem hvalue
  | .set items, h => by
    obtain ⟨v, hmem, n, hlong, hstands⟩ := exists_holdsLong_of_not_areWritable shown items h
    exact ⟨n, hlong, .member hmem hstands⟩

theorem exists_holdsLong_of_not_areWritable (shown : List Label) :
    ∀ items : List Value, areWritable shown items = false → ∃ v ∈ items, v.HoldsLong
  | [], h => nomatch h
  | v :: rest, h => by
    simp only [areWritable, Bool.and_eq_false_iff] at h
    rcases h with hfirst | hrest
    · exact ⟨v, List.mem_cons_self, holdsLong_of_not_isWritableIn shown v hfirst⟩
    · obtain ⟨v', hmem, hlong⟩ := exists_holdsLong_of_not_areWritable shown rest hrest
      exact ⟨v', List.mem_cons_of_mem _ hmem, hlong⟩

theorem exists_holdsLong_of_not_entriesWritable (shown : List Label) :
    ∀ entries : List (Value × Value), entriesWritable shown entries = false →
      ∃ entry ∈ entries, entry.1.HoldsLong ∨ entry.2.HoldsLong
  | [], h => nomatch h
  | (k, v) :: rest, h => by
    simp only [entriesWritable, Bool.and_eq_false_iff] at h
    rcases h with (hkey | hvalue) | hrest
    · exact ⟨(k, v), List.mem_cons_self, .inl (holdsLong_of_not_isWritableIn shown k hkey)⟩
    · exact ⟨(k, v), List.mem_cons_self, .inr (holdsLong_of_not_isWritableIn shown v hvalue)⟩
    · obtain ⟨entry, hmem, hlong⟩ := exists_holdsLong_of_not_entriesWritable shown rest hrest
      exact ⟨entry, List.mem_cons_of_mem _ hmem, hlong⟩

end

theorem holdsLong_of_not_isWritable {v : Value} (h : ¬ v.isWritable = true) : v.HoldsLong := by
  exact holdsLong_of_not_isWritableIn [] v (Bool.eq_false_iff.2 h)

end Value

namespace Settings

/-! ## Checks that report -/

section Checks

variable {α β : Type} {odd long : Prop} {x : Checked α}

/-- Whatever a check finds wrong it reports, unless the output directory is odd or an integer is too
long to be shown. -/
structure Reports (odd long : Prop) (x : Checked α) : Prop where
  odd : x = .error .outputNotText → odd
  long : x = .error .unwritable → long

theorem Reports.ok (a : α) : Reports odd long (.ok a) where
  odd := nofun
  long := nofun

theorem Reports.error {why : SettingsError} (hodd : why ≠ .outputNotText)
    (hlong : why ≠ .unwritable) : Reports odd long (.error why : Checked α) where
  odd h := absurd (Except.error.inj h) hodd
  long h := absurd (Except.error.inj h) hlong

theorem Reports.bind {f : α → Checked β} (hx : Reports odd long x)
    (hf : ∀ a, Reports odd long (f a)) : Reports odd long (x >>= f) := by
  cases x with
  | error why =>
    constructor
    · exact fun h => hx.odd (congrArg _ (Except.error.inj h))
    · exact fun h => hx.long (congrArg _ (Except.error.inj h))
  | ok a => exact hf a

theorem reports_shown {v : Value} (h : v.HoldsLong → long) : Reports odd long (shown v) := by
  unfold shown Value.display?
  by_cases hwritable : v.isWritable = true
  · rw [if_pos hwritable]
    exact .ok _
  · rw [if_neg hwritable]
    exact ⟨nofun, fun _ => h (Value.holdsLong_of_not_isWritable hwritable)⟩

theorem reports_refuseShowing {v : Value} {why : SettingsError} (h : v.HoldsLong → long)
    (hodd : why ≠ .outputNotText) (hlong : why ≠ .unwritable) :
    Reports odd long (refuseShowing v why : Checked α) := by
  unfold refuseShowing
  by_cases hwritable : v.isWritable = true
  · rw [if_pos hwritable]
    exact .error hodd hlong
  · rw [if_neg hwritable]
    exact ⟨nofun, fun _ => h (Value.holdsLong_of_not_isWritable hwritable)⟩

theorem reports_mapM_shown {items : List Value} (h : ∀ v ∈ items, v.HoldsLong → long) :
    Reports odd long (items.mapM shown) := by
  induction items with
  | nil => exact .ok []
  | cons v rest ih =>
    obtain ⟨hfirst, hrest⟩ := List.forall_mem_cons.1 h
    rw [List.mapM_cons]
    exact (reports_shown hfirst).bind fun _ => (ih hrest).bind fun _ => .ok _

end Checks

section Parts

variable {odd long : Prop} {entries : Entries} {key place : String}

theorem reports_shownField (usual : String) (h : (Value.field entries key).HoldsLong → long) :
    Reports odd long (shownField entries key usual) := by
  unfold shownField
  simp only
  split
  · exact reports_shown h
  · exact .ok _

/-- The usual number is short; so what is too long to be shown is what the document says. -/
theorem reports_number {usual : Number} (husual : usual.isWritable = true) (least : Int)
    (strict : Bool) (h : (Value.field entries key).HoldsLong → long) :
    Reports odd long (number entries key usual least strict) := by
  have hvalue : ((Value.lookupText key entries).getD (.num usual)).HoldsLong → long := by
    cases hlookup : Value.lookupText key entries with
    | none =>
      rintro ⟨n, hlong, hstands⟩
      cases hstands
      rw [Number.isWritable, decide_eq_true_eq] at husual
      exact absurd husual (Nat.not_le.2 hlong)
    | some v =>
      unfold Value.field at h
      rwa [hlookup] at h
  unfold number
  split
  · next n hnumber =>
    rw [hnumber] at hvalue
    split
    · exact reports_refuseShowing hvalue nofun nofun
    · exact .ok _
  · exact reports_refuseShowing hvalue nofun nofun

theorem reports_integer (usual least : Int) (husual : (Number.int usual).isWritable = true)
    (h : (Value.field entries key).HoldsLong → long) :
    Reports odd long (integer entries key usual least) := by
  refine (reports_number husual least false h).bind fun n => ?_
  split
  · exact .ok _
  -- A double is always shown.
  · next n hdouble =>
    refine reports_refuseShowing ?_ nofun nofun
    rintro ⟨m, -, hstands⟩
    cases hstands
    exact absurd rfl (hdouble m)

theorem reports_count? : Reports odd long (count? entries key place) := by
  unfold count?
  split
  · exact .ok _
  · split
    · exact .error nofun nofun
    · exact .ok _
  · exact .error nofun nofun

theorem reports_serverOf (index : Nat) {v : Value} (h : v.HoldsLong → long) :
    Reports odd long (serverOf index v) := by
  unfold serverOf
  split
  · split
    · exact .error nofun nofun
    · split
      · exact .error nofun nofun
      · split
        · exact .error nofun nofun
        · exact (reports_shownField _ fun hfield => h (.of_field _ hfield)).bind fun description =>
            (reports_shownField _ fun hfield => h (.of_field _ hfield)).bind fun link => .ok _
  · exact .error nofun nofun

theorem reports_serversFrom (index : Nat) {items : List Value}
    (h : ∀ v ∈ items, v.HoldsLong → long) : Reports odd long (serversFrom index items) := by
  induction items generalizing index with
  | nil => exact .ok []
  | cons v rest ih =>
    obtain ⟨hfirst, hrest⟩ := List.forall_mem_cons.1 h
    exact (reports_serverOf index hfirst).bind fun s =>
      (ih (index + 1) hrest).bind fun others => .ok _

theorem reports_expectation (place : String) (v : Value) :
    Reports odd long (expectation place v) := by
  unfold expectation
  split
  · exact .ok _
  · simp only
    split
    · exact (reports_count?).bind fun line => .ok _
    · exact (reports_count?).bind fun line => .ok _
    · exact .error nofun nofun
  · exact .error nofun nofun

theorem reports_editOf (place : String) (v : Value) : Reports odd long (editOf place v) := by
  unfold editOf
  split
  · refine reports_count?.bind fun line => reports_count?.bind fun col => ?_
    split
    · exact (reports_expectation _ _).bind fun expect => .ok _
    · exact .error nofun nofun
  · exact .error nofun nofun

theorem reports_editsFrom (place : String) (index : Nat) (items : List Value) :
    Reports odd long (editsFrom place index items) := by
  induction items generalizing index with
  | nil => exact .ok []
  | cons v rest ih =>
    exact (reports_editOf _ v).bind fun e => (ih (index + 1)).bind fun others => .ok _

theorem reports_editList (place : String) (v : Value) : Reports odd long (editList place v) := by
  unfold editList
  split
  · exact .ok []
  · exact reports_editsFrom place 0 _
  · exact .error nofun nofun

theorem reports_triggerOf {v : Value} (h : v.HoldsLong → long) :
    Reports odd long (methodOf.triggerOf v) := by
  unfold methodOf.triggerOf
  split
  · exact .ok _
  · exact (reports_shown h).bind fun text => .ok _

theorem reports_methodOf (place : String) {v : Value} (h : v.HoldsLong → long) :
    Reports odd long (methodOf place v) := by
  unfold methodOf
  split
  · exact reports_count?.bind fun line => reports_count?.bind fun col =>
      (reports_triggerOf fun hfield => h (.of_field _ hfield)).bind fun trigger =>
      (reports_expectation _ _).bind fun expect => (reports_editList _ _).bind fun edits => .ok _
  · exact .error nofun nofun

theorem reports_methodsFrom (table : MethodTable) {entries : Entries}
    (h : ∀ entry ∈ entries, (entry.1.HoldsLong → long) ∧ (entry.2.HoldsLong → long)) :
    Reports odd long (methodsFrom table entries) := by
  induction entries generalizing table with
  | nil => exact .ok table
  | cons entry rest ih =>
    obtain ⟨⟨hkey, hvalue⟩, hrest⟩ := List.forall_mem_cons.1 h
    rw [methodsFrom]
    refine (reports_shown hkey).bind fun name => ?_
    split
    · exact .error nofun nofun
    · exact (reports_methodOf _ hvalue).bind fun own => ih _ hrest

theorem reports_methodTable {v : Value} (h : v.HoldsLong → long) :
    Reports odd long (methodTable v) := by
  unfold methodTable
  split
  · exact .ok []
  · exact reports_methodsFrom [] fun entry hmem =>
      ⟨fun hkey => h (.of_key hmem hkey), fun hvalue => h (.of_value hmem hvalue)⟩
  · exact .error nofun nofun

theorem reports_addTrigger {v : Value} (h : v.HoldsLong → long) (table : MethodTable) :
    Reports odd long (addTrigger v table) := by
  unfold addTrigger
  split
  · exact .ok _
  · simp only
    split
    · exact .ok _
    · exact (reports_shown h).bind fun text => .ok _

theorem reports_limitOf (v : Value) : Reports odd long (limitOf v) := by
  unfold limitOf
  split
  · exact .ok _
  · split
    · exact .ok _
    · exact .error nofun nofun
  · split
    · exact .error nofun nofun
    · exact .ok _
  · exact .error nofun nofun

end Parts

/-! ## The output directory -/

/-- The document has an output directory that counts as present, and is no text. -/
def OddOutput : Value → Prop
  | .map entries _ =>
    (Value.field entries "output").truthy = true ∧ ∀ s, Value.field entries "output" ≠ .str s
  | _ => False

section Output

variable {long : Prop} {entries : Entries} {label : Option Label}

theorem reports_outputPath :
    Reports (OddOutput (.map entries label)) long (outputPath (Value.field entries "output")) := by
  unfold outputPath
  split
  · next htruthy =>
    split
    · exact .ok _
    · next hs => exact ⟨fun _ => ⟨htruthy, hs⟩, nofun⟩
  · exact .ok _

theorem not_oddOutput_of_outputPath {path : Path}
    (h : outputPath (Value.field entries "output") = .ok path) :
    ¬ OddOutput (.map entries label) := by
  rintro ⟨htruthy, hs⟩
  unfold outputPath at h
  rw [if_pos htruthy] at h
  split at h
  · next s htext => exact hs s htext
  · cases h

end Output

/-! ## The whole -/

theorem reports_ofEntries (entries : Entries) (label : Option Label) :
    Reports (OddOutput (.map entries label)) (Value.HoldsLong (.map entries label))
      (ofEntries entries) := by
  have hfield (key : String) : (Value.field entries key).HoldsLong →
      Value.HoldsLong (.map entries label) := .of_field label
  have hitems {key : String} {items : List Value} {within : Option Label}
      (h : Value.field entries key = .seq items within) (v : Value) (hmem : v ∈ items)
      (hlong : v.HoldsLong) : Value.HoldsLong (.map entries label) :=
    hfield key (h ▸ .of_item hmem hlong)
  unfold ofEntries
  split
  · exact .error nofun nofun
  split
  · exact .error nofun nofun
  simp only
  split
  case h_2 => exact .error nofun nofun
  next items within hservers =>
  rw [pure_bind]
  refine (reports_serversFrom 0 (hitems hservers)).bind fun servers => ?_
  -- The benchmarks are a list, or are left out.
  repeat' split
  case isTrue => exact .error nofun nofun
  case' h_1 names within hnames => have hshown := hitems hnames
  case' isFalse =>
    have hshown : ∀ v ∈ ([] : List Value), v.HoldsLong → Value.HoldsLong (.map entries label) :=
      nofun
  all_goals
    rw [pure_bind]
    exact (reports_methodTable (hfield _)).bind fun table =>
      (reports_addTrigger (hfield _) _).bind fun table =>
      (reports_integer _ _ (by decide) (hfield _)).bind fun line =>
      (reports_integer _ _ (by decide) (hfield _)).bind fun col =>
      (reports_integer _ _ (by decide) (hfield _)).bind fun iterations =>
      (reports_integer _ _ (by decide) (hfield _)).bind fun warmup =>
      (reports_number (by decide) _ _ (hfield _)).bind fun timeout =>
      (reports_number (by decide) _ _ (hfield _)).bind fun indexTimeout =>
      reports_outputPath.bind fun output => (reports_mapM_shown hshown).bind fun names =>
      (reports_limitOf _).bind fun limit =>
      (reports_shownField _ (hfield _)).bind fun languageId => .ok _

theorem reports_ofValue (v : Value) : Reports (OddOutput v) v.HoldsLong (ofValue v) := by
  unfold ofValue
  split
  · exact reports_ofEntries _ _
  · exact .error nofun nofun

theorem not_oddOutput_of_ok {v : Value} {s : Settings} (h : ofValue v = .ok s) :
    ¬ OddOutput v := by
  unfold ofValue at h
  split at h
  · next entries label =>
    obtain ⟨path, hpath⟩ := (reads_of_ofEntries h).output
    exact not_oddOutput_of_outputPath hpath
  · cases h

end Settings

/-! ## The command -/

namespace Command

/-- A command line asks for a run, and its settings file holds a document. -/
def Holds (tools : Tools) (argv : List String) (host : Host Number) (v : Value) : Prop :=
  ∃ o path octets text, Options.parse argv = .ok o ∧ o.init = false ∧ o.config = some path ∧
    host.files.read path = .ok octets ∧ Text.decodeUtf8? octets = some text ∧
    Settings.document tools (path.hasSuffix ".json") (Text.unifyNewlines text) = .ok v

theorem load_refused_iff {tools : Tools} {files : Files} {path : Path} {why : SettingsError} :
    Settings.load tools files path = .error (.refused why) ↔
      ∃ octets text v, files.read path = .ok octets ∧ Text.decodeUtf8? octets = some text ∧
        Settings.document tools (path.hasSuffix ".json") (Text.unifyNewlines text) = .ok v ∧
        Settings.ofValue v = .error why := by
  constructor
  · intro h
    unfold Settings.load at h
    split at h
    · cases h
    · cases h
    next octets hread =>
    unfold Settings.ofOctets at h
    split at h
    · cases h
    next text htext =>
    split at h
    · cases h
    · cases h
    next v hdocument =>
    split at h
    · next why' hvalue =>
      injection h with h
      injection h with h
      exact ⟨octets, text, v, hread, htext, hdocument, h ▸ hvalue⟩
    · cases h
  · rintro ⟨octets, text, v, hread, htext, hdocument, hvalue⟩
    simp only [Settings.load, hread, Settings.ofOctets, htext, hdocument, hvalue]

theorem run_of_refused {tools : Tools} {argv : List String} {host : Host Number} {v : Value}
    {why : SettingsError} (hholds : Holds tools argv host v)
    (hvalue : Settings.ofValue v = .error why) :
    run tools argv host = turnDown host (.load (.refused why)) := by
  obtain ⟨o, path, octets, text, hparse, hinit, hconfig, hread, htext, hdocument⟩ := hholds
  have hload : Settings.load tools host.files path = .error (.refused why) :=
    load_refused_iff.2 ⟨octets, text, v, hread, htext, hdocument, hvalue⟩
  have hprepare : prepare tools o path host.files = .error (.load (.refused why)) := by
    rw [prepare, hload]
    rfl
  simp only [run, hparse, execute, hconfig, hinit, hprepare]

theorem turnDown_refused {host : Host Number} {why : SettingsError} (hodd : why ≠ .outputNotText)
    (hlong : why ≠ .unwritable) :
    turnDown host (.load (.refused why)) = refuse host why.message := by
  cases why with
  | outputNotText => exact absurd rfl hodd
  | unwritable => exact absurd rfl hlong
  | _ => rfl

/-- **Refused settings.**  A document gives settings, or a reason that is reported: a command on it
shows the reason, ends with status 1 and leaves the machine as it was.  There are two other ways,
which break the command off: an output directory that counts as present and is no text, and an
integer that is too long to be shown where the settings, or the reason, would show it. -/
theorem run_reports_refusal (tools : Tools) (v : Value) :
    (∃ s, Settings.ofValue v = .ok s ∧ ¬ Settings.OddOutput v) ∨
    (∃ why, Settings.ofValue v = .error why ∧ why ≠ .outputNotText ∧ why ≠ .unwritable ∧
      ∀ argv host, Holds tools argv host v →
        run tools argv host =
          { ending := .status 1, output := [], errors := ["Error: " ++ why.message]
            host := host }) ∨
    (Settings.ofValue v = .error .outputNotText ∧ Settings.OddOutput v ∧
      ∀ argv host, Holds tools argv host v → run tools argv host = breakOff host .noOutput) ∨
    (Settings.ofValue v = .error .unwritable ∧ v.HoldsLong ∧
      ∀ argv host, Holds tools argv host v → run tools argv host = breakOff host .unwritable) := by
  have hreports := Settings.reports_ofValue v
  cases hvalue : Settings.ofValue v with
  | ok s => exact .inl ⟨s, rfl, Settings.not_oddOutput_of_ok hvalue⟩
  | error why =>
    right
    by_cases hodd : why = .outputNotText
    · subst hodd
      exact .inr (.inl ⟨rfl, hreports.odd hvalue, fun argv host hholds =>
        run_of_refused hholds hvalue⟩)
    by_cases hlong : why = .unwritable
    · subst hlong
      exact .inr (.inr ⟨rfl, hreports.long hvalue, fun argv host hholds =>
        run_of_refused hholds hvalue⟩)
    · refine .inl ⟨why, rfl, hodd, hlong, fun argv host hholds => ?_⟩
      rw [run_of_refused hholds hvalue, turnDown_refused hodd hlong]
      rfl

section Examples

def hostWith (document : String) : Host Number where
  clock := .int 0
  files := ⟨⟨"/", []⟩, [(["c.json"], .file (Text.encodeUtf8 document.toList))]⟩
  now := { date := ⟨2026, 2, 13⟩ }

def refusedFor (test : SettingsError → Bool) (argv : List String) (host : Host Number) : Bool :=
  (Options.parse argv).toOption.any fun o =>
    !o.init && o.config.any fun path =>
      match Settings.load .usual host.files path with
      | .error (.refused why) => test why
      | _ => false

theorem exists_of_refusedFor {test : SettingsError → Bool} {argv : List String}
    {host : Host Number} (h : refusedFor test argv host = true) :
    ∃ v why, Holds .usual argv host v ∧ Settings.ofValue v = .error why ∧ test why = true := by
  obtain ⟨o, hparse, h⟩ := any_toOption.1 h
  rw [Bool.and_eq_true, Bool.not_eq_true', Option.any_eq_true] at h
  obtain ⟨hinit, path, hconfig, h⟩ := h
  split at h
  · next why hload =>
    obtain ⟨octets, text, v, hread, htext, hdocument, hvalue⟩ := load_refused_iff.1 hload
    exact ⟨v, why, ⟨o, path, octets, text, hparse, hinit, hconfig, hread, htext, hdocument⟩,
      hvalue, h⟩
  · cases h

def serversText : String :=
  "\x7b\"project\": \".\", \"file\": \"a.sol\", \"servers\": 5\x7d"

/-- Servers that are no list are reported, and the command ends with status 1. -/
theorem run_reports_refusal_servers :
    ∃ v why, Holds .usual ["-c", "c.json"] (hostWith serversText) v ∧
      Settings.ofValue v = .error why ∧
      run .usual ["-c", "c.json"] (hostWith serversText) =
        { ending := .status 1, errors := ["Error: 'servers' must be a list"]
          host := hostWith serversText } := by
  have hrefused : refusedFor (fun why => why.message == "'servers' must be a list")
      ["-c", "c.json"] (hostWith serversText) = true := by decide +kernel
  obtain ⟨v, why, hholds, hvalue, hmessage⟩ := exists_of_refusedFor hrefused
  rcases run_reports_refusal .usual v with
    ⟨s, hok, -⟩ | ⟨why', herror, -, -, hrun⟩ | ⟨hodd, -, -⟩ | ⟨hlong, -, -⟩
  · rw [hvalue] at hok
    cases hok
  · rw [hvalue] at herror
    obtain rfl := Except.error.inj herror
    refine ⟨v, why, hholds, hvalue, ?_⟩
    rw [hrun _ _ hholds, eq_of_beq hmessage]
    rfl
  · rw [hvalue] at hodd
    obtain rfl := Except.error.inj hodd
    exact absurd hmessage (by decide)
  · rw [hvalue] at hlong
    obtain rfl := Except.error.inj hlong
    exact absurd hmessage (by decide)

def outputText : String :=
  "\x7b\"project\": \".\", \"file\": \"a.sol\", \"servers\": [], \"output\": 5\x7d"

def isUnreported : SettingsError → Bool
  | .outputNotText => true
  | _ => false

theorem eq_of_isUnreported {why : SettingsError} (h : isUnreported why = true) :
    why = .outputNotText := by
  unfold isUnreported at h
  split at h
  · rfl
  · cases h

/-- An output directory that is a number is not reported: the command breaks off. -/
theorem run_breaks_off_output :
    ∃ v, Holds .usual ["-c", "c.json"] (hostWith outputText) v ∧
      Settings.ofValue v = .error .outputNotText ∧
      run .usual ["-c", "c.json"] (hostWith outputText) =
        breakOff (hostWith outputText) .noOutput := by
  have hrefused : refusedFor isUnreported ["-c", "c.json"] (hostWith outputText) = true := by
    decide +kernel
  obtain ⟨v, why, hholds, hvalue, htest⟩ := exists_of_refusedFor hrefused
  obtain rfl := eq_of_isUnreported htest
  exact ⟨v, hholds, hvalue, run_of_refused hholds hvalue⟩

end Examples

end Command

end Latency

import Latency.Proofs.Bench.Triggers
import Latency.Proofs.Lists
import Latency.Proofs.Settings.Names
/-!
# Settings of single methods

What a document sets for a method is the last of its entries that the method goes by, whatever name
the entry uses.  The requests of the method ask where that entry says and else where the whole
document says, line and column each for itself, and only those of completion carry a trigger
(`overrides_reach_requests`).
-/

namespace Latency

namespace Settings

/-! ## The entries of a document -/

def methodEntries (entries : Entries) : Entries :=
  match Value.field entries "methods" with
  | .map rows _ => rows
  | _ => []

/-- The row is for a method: the method goes by its key, white space around it aside. -/
def IsFor (method : String) (row : Value × Value) : Prop :=
  GoesBy method (Text.trim row.1.display)

/-- The entry that counts for a method: the last one for it, if there is one. -/
inductive Overrides (entries : Entries) (method : String) : Option Entries → Prop
  | last {key : Value} {own : Entries} {label : Option Label} :
    IsLast (IsFor method) (methodEntries entries) (key, .map own label) →
    Overrides entries method (some own)
  | none : (∀ row ∈ methodEntries entries, ¬ IsFor method row) → Overrides entries method none

def part (own : Option Entries) (key : String) : Value :=
  Value.field (own.getD []) key

/-- A number that is set, zero included, or the usual one. -/
inductive Chooses (set : Value) (usual : Int) : Int → Prop
  | own {n : Int} : set = .num (.int n) → Chooses set usual n
  | usual : set = .null → Chooses set usual usual

/-- The trigger of a method, or else that of the whole document. -/
inductive Triggers (own document : Value) : Option String → Prop
  | own : own ≠ .null → Triggers own document (some own.display)
  | document : own = .null → document ≠ .null → Triggers own document (some document.display)
  | none : own = .null → document = .null → Triggers own document none

theorem Chooses.unique {set : Value} {usual n m : Int} (hn : Chooses set usual n)
    (hm : Chooses set usual m) : n = m := by
  cases hn with
  | own hn =>
    cases hm with
    | own hm => exact (by simpa [hn] using hm)
    | usual hm => simp [hn] at hm
  | usual hn =>
    cases hm with
    | own hm => simp [hn] at hm
    | usual hm => rfl

theorem Triggers.unique {own document : Value} {t t' : Option String}
    (h : Triggers own document t) (h' : Triggers own document t') : t = t' := by
  cases h <;> cases h' <;> first | rfl | contradiction

/-! ## The table of methods -/

theorem count?_ok {entries : Entries} {key place : String} {set : Option Int}
    (h : count? entries key place = .ok set) (usual : Int) :
    Chooses (Value.field entries key) usual (set.getD usual) := by
  unfold count? at h
  split at h
  · next hnull =>
    obtain rfl := Except.ok.inj h
    exact .usual hnull
  · next n hnumber =>
    split at h
    · cases h
    · obtain rfl := Except.ok.inj h
      exact .own hnumber
  · cases h

/-- What a table has for a method is what an entry sets. -/
structure Sets (own : Option Entries) (set : MethodSettings) : Prop where
  line : ∀ usual, Chooses (part own "line") usual (set.line.getD usual)
  col : ∀ usual, Chooses (part own "col") usual (set.col.getD usual)
  trigger : set.trigger = triggerText (part own "trigger")

theorem sets_none : Sets none {} where
  line _ := .usual rfl
  col _ := .usual rfl
  trigger := rfl

theorem methodOf_ok {place : String} {v : Value} {set : MethodSettings}
    (h : methodOf place v = .ok set) : ∃ own label, v = .map own label ∧ Sets (some own) set := by
  unfold methodOf at h
  split at h
  · next own label =>
    obtain ⟨line, hline, h⟩ := bind_ok h
    obtain ⟨col, hcol, h⟩ := bind_ok h
    obtain ⟨trigger, htrigger, h⟩ := bind_ok h
    obtain ⟨expect, -, h⟩ := bind_ok h
    obtain ⟨edits, -, h⟩ := bind_ok h
    obtain rfl := Except.ok.inj h
    exact ⟨own, label, rfl, count?_ok hline, count?_ok hcol, triggerOf_ok htrigger⟩
  · cases h

/-- A row that is read sets what it says for the benchmark that it is for. -/
theorem methodsFrom_cons_ok {table result : MethodTable} {row : Value × Value} {rest : Entries}
    (h : methodsFrom table (row :: rest) = .ok result) :
    ∃ benchmark own label set, benchmark ∈ catalogue ∧ IsFor benchmark row ∧
      row.2 = .map own label ∧ Sets (some own) set ∧
      methodsFrom (Json.put benchmark set table) rest = .ok result := by
  obtain ⟨key, v⟩ := row
  obtain ⟨name, hshown, h⟩ := bind_ok h
  obtain rfl := shown_ok hshown
  split at h
  · cases h
  · next benchmark hname =>
    obtain ⟨set, hset, hrest⟩ := bind_ok h
    obtain ⟨hbenchmark, hgoes⟩ := resolveName?_eq_some_iff.1 hname
    obtain ⟨own, label, rfl, hsets⟩ := methodOf_ok hset
    exact ⟨benchmark, own, label, set, hbenchmark, hgoes, rfl, hsets, hrest⟩

theorem IsFor.unique {method other : String} {row : Value × Value} (hmethod : method ∈ catalogue)
    (hother : other ∈ catalogue) (h : IsFor method row) (h' : IsFor other row) : method = other :=
  Option.some.inj ((resolveName?_eq_some_iff.2 ⟨hmethod, h⟩).symm.trans
    (resolveName?_eq_some_iff.2 ⟨hother, h'⟩))

/-- Rows for other methods leave alone what a method has. -/
theorem lookup_methodsFrom_of_not_isFor {method : String} {table result : MethodTable}
    {rows : Entries} (h : methodsFrom table rows = .ok result)
    (hother : ∀ row ∈ rows, ¬ IsFor method row) : result.lookup method = table.lookup method := by
  induction rows generalizing table with
  | nil => rw [← Except.ok.inj h]
  | cons row rest ih =>
    obtain ⟨hrow, hrest⟩ := List.forall_mem_cons.1 hother
    obtain ⟨benchmark, _, _, set, -, hfor, -, -, h⟩ := methodsFrom_cons_ok h
    have hne : method ≠ benchmark := by
      rintro rfl
      exact hrow hfor
    rw [ih h hrest, Json.lookup_put_of_ne hne]

/-- Behind the last row for a method, the method has what that row sets. -/
theorem lookup_methodsFrom_of_isLast {method : String} (hmethod : method ∈ catalogue)
    {table result : MethodTable} {rows : Entries} {row : Value × Value}
    (h : methodsFrom table rows = .ok result) (hlast : IsLast (IsFor method) rows row) :
    ∃ own label set, row.2 = .map own label ∧ Sets (some own) set ∧
      result.lookup method = some set := by
  obtain ⟨front, back, rfl, hfor, hback⟩ := hlast
  induction front generalizing table with
  | nil =>
    obtain ⟨benchmark, own, label, set, hbenchmark, hfor', hv, hsets, h⟩ := methodsFrom_cons_ok h
    obtain rfl := hfor.unique hmethod hbenchmark hfor'
    refine ⟨own, label, set, hv, hsets, ?_⟩
    rw [lookup_methodsFrom_of_not_isFor h hback, Json.lookup_put_self]
  | cons first front ih =>
    obtain ⟨_, _, _, _, -, -, -, -, h⟩ := methodsFrom_cons_ok h
    exact ih h

theorem methodsFrom_of_methodTable {entries : Entries} {table : MethodTable}
    (h : methodTable (Value.field entries "methods") = .ok table) :
    methodsFrom [] (methodEntries entries) = .ok table := by
  unfold methodTable at h
  unfold methodEntries
  split at h
  · next hnull =>
    rw [hnull]
    exact h
  · next rows label hrows =>
    rw [hrows]
    exact h
  · cases h

section Table

variable {entries : Entries} {table : MethodTable} {method : String}

theorem exists_overrides (h : methodTable (Value.field entries "methods") = .ok table)
    (hmethod : method ∈ catalogue) : ∃ own, Overrides entries method own := by
  obtain hnone | ⟨⟨key, v⟩, hlast⟩ := exists_isLast (IsFor method) (methodEntries entries)
  · exact ⟨none, .none hnone⟩
  · obtain ⟨own, label, _, rfl, -, -⟩ :=
      lookup_methodsFrom_of_isLast hmethod (methodsFrom_of_methodTable h) hlast
    exact ⟨some own, .last hlast⟩

/-- The table has for a method what the entry sets that counts for it. -/
theorem Overrides.sets {own : Option Entries} (hown : Overrides entries method own)
    (h : methodTable (Value.field entries "methods") = .ok table) (hmethod : method ∈ catalogue) :
    Sets own ((table.lookup method).getD {}) := by
  have hread := methodsFrom_of_methodTable h
  cases hown with
  | none hnone =>
    rw [lookup_methodsFrom_of_not_isFor hread hnone]
    exact sets_none
  | last hlast =>
    obtain ⟨own, label, set, hv, hsets, hlookup⟩ :=
      lookup_methodsFrom_of_isLast hmethod hread hlast
    obtain ⟨rfl, rfl⟩ := Value.map.inj hv
    rwa [hlookup]

end Table

/-! ## Triggers -/

theorem triggers_triggerText (own document : Value) :
    Triggers own document (triggerText own <|> triggerText document) := by
  by_cases hown : own = .null
  · subst hown
    by_cases hdocument : document = .null
    · subst hdocument
      exact .none rfl rfl
    · rw [triggerText_of_ne_null hdocument]
      exact .document rfl hdocument
  · rw [triggerText_of_ne_null hown]
    exact .own hown

/-- The trigger of the whole document is added for completion, unless this has its own. -/
theorem lookup_withTrigger_completion (v : Value) (table : MethodTable) :
    ((withTrigger v table).lookup completionName).getD {} =
      let own := (table.lookup completionName).getD {}
      { own with trigger := own.trigger <|> triggerText v } := by
  obtain ⟨⟨line, col, trigger, expect, edits⟩, hown⟩ :
      ∃ own, (table.lookup completionName).getD {} = own := ⟨_, rfl⟩
  unfold withTrigger
  rw [hown]
  cases trigger with
  | some t => cases triggerText v <;> exact hown
  | none =>
    cases triggerText v with
    | none => exact hown
    | some text =>
      simp only [Json.lookup_put_self]
      rfl

theorem lookup_withTrigger_of_ne {method : String} (hmethod : method ≠ completionName) (v : Value)
    (table : MethodTable) : (withTrigger v table).lookup method = table.lookup method := by
  unfold withTrigger
  simp only
  split
  · exact Json.lookup_put_of_ne hmethod ..
  · rfl

/-! ## What a document sets -/

/-- What a document says for the requests of a method: where they ask, and with which trigger. -/
structure Says (entries : Entries) (s : Settings) (own : Option Entries) (line col : Int)
    (trigger : Option String) : Prop where
  line : Chooses (part own "line") s.line line
  col : Chooses (part own "col") s.col col
  trigger : Triggers (part own "trigger") (Value.field entries "trigger_character") trigger

end Settings

/-! ## Parameters -/

namespace Params

def positioned : List String := [
  "textDocument/definition", "textDocument/declaration", "textDocument/typeDefinition",
  "textDocument/implementation", "textDocument/hover", "textDocument/references",
  "textDocument/completion", "textDocument/signatureHelp", "textDocument/rename",
  "textDocument/prepareRename"]

/-- The requests of a method ask at a position, those of completion with a trigger; nothing else in
them depends on either. -/
structure Asks (method uri : String) (line col : Int) (trigger : Option String) (params : Json) :
    Prop where
  position : method ∈ positioned →
    params.get? "position" = some (.obj [("line", .int line), ("character", .int col)])
  positions : method = "textDocument/selectionRange" →
    params.get? "positions" = some (.arr [.obj [("line", .int line), ("character", .int col)]])
  nowhere : method ∉ positioned → method ≠ "textDocument/selectionRange" →
    ∀ line col trigger, params = build method uri line col trigger
  context : method = completionName → ∀ context, params.get? "context" = some context ↔
    ∃ t, trigger = some t ∧ t ≠ "" ∧
      context = .obj [("triggerKind", .int 2), ("triggerCharacter", .str t)]
  untriggered : method ≠ completionName → ∀ trigger, params = build method uri line col trigger

theorem get?_position_build (uri : String) (line col : Int) (trigger : Option String) :
    ∀ method ∈ positioned, (build method uri line col trigger).get? "position" =
      some (.obj [("line", .int line), ("character", .int col)]) := by
  simp only [positioned, List.forall_mem_cons, List.not_mem_nil, false_imp_iff, implies_true]
  refine ⟨rfl, rfl, rfl, rfl, rfl, rfl, rfl, rfl, rfl, rfl, trivial⟩

theorem get?_context_completion (uri : String) (line col : Int) (trigger : Option String)
    (context : Json) :
    (build completionName uri line col trigger).get? "context" = some context ↔
      ∃ t, trigger = some t ∧ t ≠ "" ∧
        context = .obj [("triggerKind", .int 2), ("triggerCharacter", .str t)] := by
  have hmember : (build completionName uri line col trigger).get? "context" =
      (triggerContext trigger).lookup "context" := by
    rw [build_completion]
    rfl
  rw [hmember]
  cases trigger with
  | none => exact ⟨(nomatch ·), fun ⟨_, h, _⟩ => nomatch h⟩
  | some t =>
    by_cases ht : t = ""
    · subst ht
      exact ⟨(nomatch ·), fun ⟨_, h, hne, _⟩ => (hne (Option.some.inj h).symm).elim⟩
    · rw [triggerContext_some ht]
      constructor
      · intro h
        exact ⟨t, rfl, ht, (Option.some.inj h).symm⟩
      · rintro ⟨t', h, -, rfl⟩
        rw [← Option.some.inj h]
        rfl

def unplaced : List String :=
  documentMethods ++ ["textDocument/formatting", "textDocument/inlayHint", "workspace/symbol"]

theorem positioned_or_unplaced : ∀ method ∈ requestNames,
    method ∈ positioned ∨ method = "textDocument/selectionRange" ∨ method ∈ unplaced := by
  decide

/-- A method that asks at no position asks the same wherever it is set to. -/
theorem build_unplaced (uri : String) (line col line' col' : Int)
    (trigger trigger' : Option String) : ∀ method ∈ unplaced,
      build method uri line col trigger = build method uri line' col' trigger' := by
  simp only [unplaced, documentMethods, List.cons_append, List.nil_append, List.forall_mem_cons,
    List.not_mem_nil, false_imp_iff, implies_true]
  exact ⟨rfl, rfl, rfl, rfl, rfl, rfl, rfl, rfl, rfl, trivial⟩

theorem asks_build {method : String} (hmethod : method ∈ requestNames) (uri : String)
    (line col : Int) (trigger : Option String) :
    Asks method uri line col trigger (build method uri line col trigger) where
  position := get?_position_build uri line col trigger method
  positions := by
    rintro rfl
    rfl
  nowhere hposition hrange line' col' trigger' := by
    have hunplaced : method ∈ unplaced :=
      ((positioned_or_unplaced method hmethod).resolve_left hposition).resolve_left hrange
    exact build_unplaced uri line col line' col' trigger trigger' method hunplaced
  context := by
    rintro rfl
    exact get?_context_completion uri line col trigger
  untriggered hne trigger' := by
    rw [build_of_ne hne uri line col trigger, build_of_ne hne uri line col trigger']

/-- A method that the table leaves out is one without settings of its own. -/
theorem forMethod_eq (methods : MethodTable) (line col : Int) (method uri : String) :
    forMethod methods line col method uri =
      let own := (methods.lookup method).getD {}
      build method uri (own.line.getD line) (own.col.getD col) own.trigger := by
  unfold forMethod
  cases methods.lookup method <;> rfl

end Params

namespace Settings

variable {entries : Entries} {s : Settings} {method : String}

theorem mem_catalogue_of_mem_requestNames (h : method ∈ requestNames) : method ∈ catalogue :=
  List.mem_cons_of_mem _ (List.mem_cons_of_mem _ h)

/-- The requests of a method are built from what the document says for it. -/
theorem exists_said (h : Reads entries s) (hmethod : method ∈ catalogue) {own : Option Entries}
    (hown : Overrides entries method own) : ∃ line col trigger,
      Says entries s own line col trigger ∧
      ∀ uri, Params.forMethod s.methods s.line s.col method uri =
        Params.build method uri line col trigger := by
  obtain ⟨table, htable, hmethods⟩ := h.methods
  have hsets := hown.sets htable hmethod
  refine ⟨_, _, _, ⟨hsets.line s.line, hsets.col s.col, triggers_triggerText _ _⟩, fun uri => ?_⟩
  rw [Params.forMethod_eq, hmethods]
  by_cases hcompletion : method = completionName
  · subst hcompletion
    simp only [lookup_withTrigger_completion, hsets.trigger]
  · simp only [lookup_withTrigger_of_ne hcompletion]
    exact (Params.build_of_ne hcompletion ..).trans (Params.build_of_ne hcompletion ..).symm

/-- **Settings of a method reach its requests.**  For every document that is read and every method,
one entry counts or none does: the last that the method goes by.  The requests ask at the line that
the entry sets, zero included, or at that of the whole document, and at the column likewise; those
of completion carry the trigger of the entry, or else that of the whole document, unless it is
empty.  Another document in which the same entry counts, with the same position for the whole and
for completion the same trigger, asks the same, whatever it sets for other methods. -/
theorem overrides_reach_requests (entries : Entries) (label : Option Label) (s : Settings)
    (method : String) (haccepted : ofValue (.map entries label) = .ok s)
    (hmethod : method ∈ requestNames) :
    (∃ own, Overrides entries method own) ∧
    (∀ own, Overrides entries method own → ∃ line col trigger,
      Says entries s own line col trigger ∧
      ∀ uri, Params.Asks method uri line col trigger
        (Params.forMethod s.methods s.line s.col method uri)) ∧
    (∀ entries' label' s', ofValue (.map entries' label') = .ok s' →
      (∃ own, Overrides entries method own ∧ Overrides entries' method own) →
      s'.line = s.line → s'.col = s.col →
      (method = completionName → Value.field entries' "trigger_character" =
        Value.field entries "trigger_character") →
      ∀ uri, Params.forMethod s'.methods s'.line s'.col method uri =
        Params.forMethod s.methods s.line s.col method uri) := by
  have hreads : Reads entries s := reads_of_ofEntries haccepted
  have hcatalogue := mem_catalogue_of_mem_requestNames hmethod
  obtain ⟨table, htable, -⟩ := hreads.methods
  refine ⟨exists_overrides htable hcatalogue, fun own hown => ?_, ?_⟩
  · obtain ⟨line, col, trigger, hsaid, hbuild⟩ := exists_said hreads hcatalogue hown
    refine ⟨line, col, trigger, hsaid, fun uri => ?_⟩
    rw [hbuild]
    exact Params.asks_build hmethod uri line col trigger
  · rintro entries' label' s' haccepted' ⟨own, hown, hown'⟩ hline hcol htrigger uri
    obtain ⟨line, col, trigger, hsaid, hbuild⟩ := exists_said hreads hcatalogue hown
    obtain ⟨line', col', trigger', hsaid', hbuild'⟩ :=
      exists_said (reads_of_ofEntries haccepted') hcatalogue hown'
    obtain rfl : line = line' := hsaid.line.unique (hline ▸ hsaid'.line)
    obtain rfl : col = col' := hsaid.col.unique (hcol ▸ hsaid'.col)
    rw [hbuild, hbuild']
    by_cases hcompletion : method = completionName
    · rw [hsaid.trigger.unique (htrigger hcompletion ▸ hsaid'.trigger)]
    · rw [Params.build_of_ne hcompletion, Params.build_of_ne hcompletion uri line col trigger]

section Example

def overrideRows : Entries := [
  (.str "hover", .map [(.str "line", .num (.int 7)), (.str "col", .num (.int 9))]),
  (.str " textDocument/hover ", .map [(.str "line", .num (.int 0))]),
  (.str "completion", .map [(.str "trigger", .str "")])]

def overrideEntries : Entries := [
  (.str "project", .str "."), (.str "file", .str "a.sol"), (.str "servers", .seq []),
  (.str "trigger_character", .str "."), (.str "methods", .map overrideRows)]

theorem methodEntries_overrideEntries : methodEntries overrideEntries = overrideRows := by
  simp [methodEntries, overrideEntries, Value.field, Value.lookupText]

theorem isFor_of_resolveName? {key : String} {v : Value}
    (h : resolveName? key = some method) : IsFor method (.str key, v) :=
  (resolveName?_eq_some_iff.1 h).2

theorem hover_overrides : Overrides overrideEntries "textDocument/hover"
    (some [(.str "line", .num (.int 0))]) := by
  have hhover : IsFor "textDocument/hover"
      (.str " textDocument/hover ", .map [(.str "line", .num (.int 0))]) :=
    isFor_of_resolveName? (by decide)
  have hcompletion : IsFor completionName (.str "completion", .map [(.str "trigger", .str "")]) :=
    isFor_of_resolveName? (by decide)
  have hlast : ∀ row ∈ [(Value.str "completion", Value.map [(.str "trigger", .str "")])],
      ¬ IsFor "textDocument/hover" row := by
    intro row hrow hfor
    obtain rfl := List.mem_singleton.1 hrow
    exact absurd (hfor.unique (by decide) (by decide) hcompletion) (by decide)
  have hrows : methodEntries overrideEntries =
      overrideRows.take 1 ++
        (Value.str " textDocument/hover ", Value.map [(.str "line", .num (.int 0))]) ::
        [(Value.str "completion", Value.map [(.str "trigger", .str "")])] :=
    methodEntries_overrideEntries
  exact .last ⟨_, _, hrows, hhover, hlast⟩

theorem completion_overrides : Overrides overrideEntries completionName
    (some [(.str "trigger", .str "")]) := by
  have hcompletion : IsFor completionName (.str "completion", .map [(.str "trigger", .str "")]) :=
    isFor_of_resolveName? (by decide)
  have hrows : methodEntries overrideEntries =
      overrideRows.take 2 ++
        (Value.str "completion", Value.map [(.str "trigger", .str "")]) :: [] :=
    methodEntries_overrideEntries
  exact .last ⟨_, _, hrows, hcompletion, fun row hrow => nomatch hrow⟩

theorem overrideEntries_accepted :
    ∃ s, ofValue (.map overrideEntries none) = .ok s ∧ s.col = 15 := by
  have hchecked : ((ofValue (.map overrideEntries none)).toOption.any (·.col == 15)) = true := by
    decide
  obtain ⟨s, haccepted, hcol⟩ := any_toOption.1 hchecked
  exact ⟨s, haccepted, beq_iff_eq.1 hcol⟩

/-- The later entry counts: hovering asks at its line zero and at the usual column.  The empty
trigger of completion is none, and not that of the whole document. -/
theorem overrides_reach_requests_hover : ∃ s,
    ofValue (.map overrideEntries none) = .ok s ∧
    (Params.forMethod s.methods s.line s.col "textDocument/hover" "file:///a.sol").get? "position" =
      some (.obj [("line", .int 0), ("character", .int 15)]) ∧
    (Params.forMethod s.methods s.line s.col completionName "file:///a.sol").get? "context" =
      none := by
  obtain ⟨s, haccepted, hcol⟩ := overrideEntries_accepted
  refine ⟨s, haccepted, ?_, ?_⟩
  · obtain ⟨-, hasks, -⟩ := overrides_reach_requests overrideEntries none s "textDocument/hover"
      haccepted (by decide +kernel)
    obtain ⟨line, col, trigger, hsaid, hasks⟩ := hasks _ hover_overrides
    obtain rfl : line = 0 := hsaid.line.unique (.own rfl)
    obtain rfl : col = 15 := hsaid.col.unique (hcol ▸ .usual rfl)
    exact (hasks _).position (by decide +kernel)
  · obtain ⟨-, hasks, -⟩ := overrides_reach_requests overrideEntries none s completionName
      haccepted (by decide +kernel)
    obtain ⟨line, col, trigger, hsaid, hasks⟩ := hasks _ completion_overrides
    obtain rfl : trigger = some "" := hsaid.trigger.unique (.own Value.noConfusion)
    refine Option.eq_none_iff_forall_ne_some.2 fun context hcontext => ?_
    obtain ⟨t, ht, hne, -⟩ := ((hasks _).context rfl context).1 hcontext
    exact hne (Option.some.inj ht).symm

end Example

end Settings

end Latency

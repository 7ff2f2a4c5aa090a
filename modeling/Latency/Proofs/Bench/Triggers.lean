import Latency.Run
import Latency.Proofs.Bench.Protocol
import Latency.Proofs.Json.Members
import Latency.Proofs.Settings.Bounds
/-!
# Requests behind edits

A request behind an edit and a request of the same method that is set to the position of the edit
ask the same, unless the method is given a trigger: behind an edit the trigger is left out
(`edits_leave_out_trigger`).
-/

namespace Latency

/-! ## A method that is set to a position -/

namespace Params

variable {methods : MethodTable} {method : String} {own : MethodSettings}

def placed (methods : MethodTable) (method : String) (line col : Int) : MethodTable :=
  methods.map fun entry => (entry.1,
    if entry.1 = method then { entry.2 with line := some line, col := some col } else entry.2)

/-- The requests of a method carry a trigger: it is completion, and the trigger is not empty. -/
def Carries (method : String) (own : MethodSettings) (trigger : String) : Prop :=
  method = completionName ∧ own.trigger = some trigger ∧ trigger ≠ ""

def triggered (trigger : String) : String × Json :=
  ("context", .obj [("triggerKind", .int 2), ("triggerCharacter", .str trigger)])

theorem lookup_placed (hown : methods.lookup method = some own) (line col : Int) :
    (placed methods method line col).lookup method =
      some { own with line := some line, col := some col } := by
  have hlookup := Json.lookup_map_value (fun name (set : MethodSettings) =>
    if name = method then { set with line := some line, col := some col } else set) method methods
  rw [placed, hlookup, hown, Option.map_some, if_pos rfl]

theorem forMethod_placed (hown : methods.lookup method = some own)
    (line col usualLine usualCol : Int) (uri : String) :
    forMethod (placed methods method line col) usualLine usualCol method uri =
      build method uri line col own.trigger := by
  simp only [forMethod, lookup_placed hown, Option.getD_some]

theorem build_of_ne (hmethod : method ≠ completionName) (uri : String) (line col : Int)
    (trigger : Option String) :
    build method uri line col trigger = build method uri line col none := by
  unfold build
  simp only [if_neg hmethod]

theorem build_completion (uri : String) (line col : Int) (trigger : Option String) :
    build completionName uri line col trigger =
      .obj (located uri line col ++ triggerContext trigger) := by
  rfl

theorem triggerContext_eq_nil {trigger : Option String} (h : ∀ t, trigger = some t → t = "") :
    triggerContext trigger = [] := by
  cases trigger with
  | none => rfl
  | some t => rw [triggerContext, if_pos (h t rfl)]

theorem triggerContext_some {t : String} (ht : t ≠ "") :
    triggerContext (some t) = [triggered t] := by
  rw [triggerContext, if_neg ht, triggered]

/-- Without a trigger that requests carry, leaving the trigger out changes nothing. -/
theorem build_of_not_carries (h : ¬ ∃ t, Carries method own t) (uri : String) (line col : Int) :
    build method uri line col own.trigger = build method uri line col none := by
  by_cases hmethod : method = completionName
  · subst hmethod
    have hempty : ∀ t, own.trigger = some t → t = "" := by
      intro t ht
      by_contra hne
      exact h ⟨t, rfl, ht, hne⟩
    rw [build_completion, build_completion, triggerContext_eq_nil hempty]
    rfl
  · exact build_of_ne hmethod uri line col own.trigger

/-- With one, what is left out is the last member of the parameters. -/
theorem Carries.build_eq {t : String} (h : Carries method own t) (uri : String) (line col : Int) :
    build method uri line col none = .obj (located uri line col) ∧
      build method uri line col own.trigger = .obj (located uri line col ++ [triggered t]) := by
  obtain ⟨rfl, htrigger, ht⟩ := h
  rw [build_completion, build_completion, htrigger, triggerContext_some ht]
  exact ⟨congrArg Json.obj (List.append_nil _), rfl⟩

end Params

/-! ## Triggers of a document -/

/-- A trigger that is set for the whole document is that of completion, unless this has its own. -/
theorem Settings.trigger_withTrigger {v : Value} (hv : v ≠ .null) {table : MethodTable}
    {own : MethodSettings} (hown : (withTrigger v table).lookup completionName = some own) :
    own.trigger =
      some (((table.lookup completionName).bind (·.trigger)).getD v.display) := by
  have htext := triggerText_of_ne_null hv
  unfold withTrigger at hown
  cases hset : table.lookup completionName with
  | none =>
    simp only [htext, hset, Option.getD_none] at hown
    rw [← Option.some.inj ((Json.lookup_put_self ..).symm.trans hown)]
    rfl
  | some set =>
    cases htrigger : set.trigger with
    | none =>
      simp only [htext, hset, Option.getD_some, htrigger] at hown
      rw [← Option.some.inj ((Json.lookup_put_self ..).symm.trans hown), Option.bind_some, htrigger]
      rfl
    | some t =>
      simp only [htext, hset, Option.getD_some, htrigger] at hown
      rw [← Option.some.inj hown, Option.bind_some, htrigger]
      rfl

/-! ## What is sent behind an edit -/

section Sent

variable {τ : Type} {files : Files} {b : BenchSettings τ} {method : String}

/-- A request of a benchmark of edits, but for the handshake, is the one behind the edit of its
number. -/
theorem request_of_mem_messages {params : String → String → Json} {edits : List ResolvedEdit}
    {m : Json} (hm : m ∈ (Task.edits method edits).messages files b params) {i : Nat}
    (hid : requestId? m = some ((i + 2 : Nat) : Int)) :
    ∃ edit, edits[i]? = some edit ∧ m = requestMessage (i + 2) method
      (Params.build method (targetUri files b) edit.line edit.col none) := by
  have hnotification {name : String} {params : Json} (h : m = Wire.notification name params) :
      False := by
    rw [h, requestId?_notification] at hid
    cases hid
  rcases List.mem_cons.1 hm with rfl | hm
  · rw [Wire.handshake, requestId?_request] at hid
    have hnumber : ((1 : Nat) : Int) = ((i + 2 : Nat) : Int) := Option.some.inj hid
    omega
  rcases List.mem_cons.1 hm with hinitialized | hm
  · exact (hnotification hinitialized).elim
  change m ∈ documentMessages files b _ at hm
  unfold documentMessages at hm
  split at hm
  · cases hm
  rcases List.mem_cons.1 hm with hopen | hm
  · exact (hnotification hopen).elim
  obtain ⟨⟨edit, j⟩, hplaced, hm⟩ := List.mem_flatMap.1 hm
  simp only [editMessages] at hm
  split at hm
  · cases hm
  rcases List.mem_cons.1 hm with hchange | hm
  · exact (hnotification hchange).elim
  obtain rfl := List.mem_singleton.1 hm
  rw [requestId?_request] at hid
  have hnumber : ((j + 2 : Nat) : Int) = ((i + 2 : Nat) : Int) := Option.some.inj hid
  obtain rfl : j = i := by omega
  exact ⟨edit, List.mem_zipIdx_iff_getElem?.1 hplaced, rfl⟩

/-- **Edits leave out the trigger.**  For every document that is read, a benchmark of edits sends
behind the edit of number `i`, under the number `i + 2`, the parameters of its method without a
trigger.  These are the ones that the table of methods gives if the method is set to the position of
the edit, exactly if its requests carry no trigger; if they do, the trigger is what is missing.  The
trigger of completion is its own or the one that is set for the whole document. -/
theorem edits_leave_out_trigger [Clock τ] (v : Value) (settings : Settings) (method : String)
    (own : MethodSettings) (haccepted : Settings.ofValue v = .ok settings)
    (hown : settings.methods.lookup method = some own) (server : Server) (b : BenchSettings τ)
    (h : Host τ) :
    let behind (edit : Edit) (uri : String) := Params.build method uri edit.line edit.col none
    let asked (edit : Edit) (uri : String) := Params.forMethod
      (Params.placed settings.methods method edit.line edit.col) settings.line settings.col method
      uri
    (∃ closed, (benchEdits server b method (Run.resolveEdits b.directory (some own)) h).2.launched =
        h.launched ++ closed ∧
      ∀ l ∈ closed, ∀ m ∈ l.process.sent, ∀ i : Nat, requestId? m = some ((i + 2 : Nat) : Int) →
        ∃ edit, own.edits[i]? = some edit ∧
          m = requestMessage (i + 2) method (behind edit (targetUri h.files b))) ∧
    (∀ edit uri, behind edit uri = asked edit uri ↔ ¬ ∃ t, Params.Carries method own t) ∧
    (∀ edit uri t, Params.Carries method own t → ∃ members,
      behind edit uri = .obj members ∧ asked edit uri = .obj (members ++ [Params.triggered t])) ∧
    (method = completionName → ∀ entries label, v = .map entries label →
      Value.field entries "trigger_character" ≠ .null →
      ∃ table, Settings.methodTable (Value.field entries "methods") = .ok table ∧
        own.trigger = some (((table.lookup completionName).bind (·.trigger)).getD
          (Value.field entries "trigger_character").display)) := by
  intro behind asked
  have hasked (edit : Edit) (uri : String) :
      asked edit uri = Params.build method uri edit.line edit.col own.trigger :=
    Params.forMethod_placed hown edit.line edit.col settings.line settings.col uri
  have hmissing (edit : Edit) (uri t : String) (hcarries : Params.Carries method own t) :
      ∃ members, behind edit uri = .obj members ∧
        asked edit uri = .obj (members ++ [Params.triggered t]) := by
    obtain ⟨hbehind, hwhole⟩ := hcarries.build_eq uri edit.line edit.col
    exact ⟨_, hbehind, (hasked edit uri).trans hwhole⟩
  refine ⟨?_, ?_, hmissing, ?_⟩
  · obtain ⟨closed, hlaunched, hsessions⟩ := Task.run_follows
      (.edits method (Run.resolveEdits b.directory (some own))) b (fun _ _ => .null) server h
    refine ⟨closed, hlaunched, fun l hl m hm i hid => ?_⟩
    obtain ⟨-, -, hfront⟩ := hsessions l hl
    obtain ⟨resolved, hresolved, rfl⟩ := request_of_mem_messages (hfront.subset hm) hid
    rw [Run.resolveEdits, List.getElem?_map, Option.map_eq_some_iff] at hresolved
    obtain ⟨edit, hedit, rfl⟩ := hresolved
    exact ⟨edit, hedit, rfl⟩
  · intro edit uri
    constructor
    · rintro hsame ⟨t, hcarries⟩
      obtain ⟨members, hbehind, hwhole⟩ := hmissing edit uri t hcarries
      have hlength := congrArg List.length (Json.obj.inj (hbehind.symm.trans (hsame.trans hwhole)))
      simp at hlength
    · intro hnone
      exact ((hasked edit uri).trans (Params.build_of_not_carries hnone uri _ _)).symm
  · rintro rfl entries label rfl htrigger
    obtain ⟨table, htable, hmethods⟩ := (Settings.reads_of_ofEntries haccepted).methods
    rw [hmethods] at hown
    exact ⟨table, htable, Settings.trigger_withTrigger htrigger hown⟩

end Sent

section Completion

def triggerDocument : Value :=
  .map [
    (.str "project", .str "."), (.str "file", .str "a.sol"), (.str "servers", .seq []),
    (.str "trigger_character", .str "."),
    (.str "methods", .map [(.str "completion", .map [(.str "didChange", .seq [.map [
      (.str "file", .str "a.sol"), (.str "line", .num (.int 1)), (.str "col", .num (.int 2))]])])])]

def completionServer : Server := { label := "s", cmd := "server" }

def completionSettings : BenchSettings Rat where
  directory := ⟨"/", []⟩
  rootUri := "file:///"
  target := ⟨"/", ["a.sol"]⟩
  warmup := 0
  iterations := 1
  timeout := 2
  indexTimeout := 2

def completionHost : Host Rat where
  clock := 0
  files := ⟨⟨"/", []⟩, [(["a.sol"], .file [])]⟩
  servers := [("server",
    [{  out := [⟨1, .message (notificationMessage publishDiagnostics
          (.obj [("diagnostics", .arr [.null])]))⟩]
        replies := [(completionName, [[⟨1, .respond "result" (.arr [.null])⟩]])] }])]
  now := { date := ⟨2026, 2, 13⟩ }

def completionRun (own : MethodSettings) : Report Rat × Host Rat :=
  benchEdits completionServer completionSettings completionName
    (Run.resolveEdits completionSettings.directory (some own)) completionHost

def asksUntriggered (m : Json) : Bool :=
  requestId? m == some 2 && ((m.get? "params").bind (·.get? "context")).isNone

theorem exists_untriggered : ∃ settings own edit, Settings.ofValue triggerDocument = .ok settings ∧
    settings.methods.lookup completionName = some own ∧ own.edits[0]? = some edit ∧
    Params.Carries completionName own "." ∧
    ∃ l ∈ (completionRun own).2.launched, ∃ m ∈ l.process.sent, asksUntriggered m = true := by
  have hchecked : ((Settings.ofValue triggerDocument).toOption.any fun settings =>
      (settings.methods.lookup completionName).any fun own =>
        own.edits[0]?.isSome && (own.trigger == some "." &&
          (completionRun own).2.launched.any fun l => l.process.sent.any asksUntriggered)) =
      true := by
    decide +kernel
  obtain ⟨settings, haccepted, hchecked⟩ := any_toOption.1 hchecked
  rw [Option.any_eq_true] at hchecked
  obtain ⟨own, hown, hchecked⟩ := hchecked
  rw [Bool.and_eq_true, Bool.and_eq_true, beq_iff_eq, List.any_eq_true] at hchecked
  obtain ⟨hedit, htrigger, l, hl, hsent⟩ := hchecked
  obtain ⟨edit, hedit⟩ := Option.isSome_iff_exists.1 hedit
  obtain ⟨m, hm, hasks⟩ := List.any_eq_true.1 hsent
  have hcarries : Params.Carries completionName own "." := ⟨rfl, htrigger, by decide⟩
  exact ⟨settings, own, edit, haccepted, hown, hedit, hcarries, l, hl, m, hm, hasks⟩

/-- Behind the edit, the trigger of the whole document is what is missing. -/
theorem edits_leave_out_trigger_completion :
    ∃ settings own edit t, Settings.ofValue triggerDocument = .ok settings ∧
      settings.methods.lookup completionName = some own ∧ own.edits[0]? = some edit ∧
      own.trigger = some t ∧ ∃ members,
        Params.build completionName "file:///a.sol" edit.line edit.col none = .obj members ∧
        Params.forMethod (Params.placed settings.methods completionName edit.line edit.col)
          settings.line settings.col completionName "file:///a.sol" =
            .obj (members ++ [Params.triggered t]) := by
  obtain ⟨settings, own, edit, haccepted, hown, hedit, hcarries, -⟩ := exists_untriggered
  obtain ⟨-, -, hmissing, -⟩ := edits_leave_out_trigger triggerDocument settings completionName own
    haccepted hown completionServer completionSettings completionHost
  exact ⟨settings, own, edit, ".", haccepted, hown, hedit, hcarries.2.1,
    hmissing edit "file:///a.sol" "." hcarries⟩

/-- What is sent behind an edit need not be what a request asks at the position of the edit. -/
theorem edits_ask_otherwise : ∃ settings own edit,
    Settings.ofValue triggerDocument = .ok settings ∧
    settings.methods.lookup completionName = some own ∧ own.edits[0]? = some edit ∧
    ∃ l ∈ (completionRun own).2.launched, ∃ m ∈ l.process.sent, requestId? m = some 2 ∧
      m ≠ requestMessage 2 completionName (Params.forMethod
        (Params.placed settings.methods completionName edit.line edit.col) settings.line
        settings.col completionName (targetUri completionHost.files completionSettings)) := by
  obtain ⟨settings, own, edit, haccepted, hown, hedit, hcarries, l, hl, m, hm, hasks⟩ :=
    exists_untriggered
  rw [asksUntriggered, Bool.and_eq_true, beq_iff_eq] at hasks
  refine ⟨settings, own, edit, haccepted, hown, hedit, l, hl, m, hm, hasks.1, ?_⟩
  rintro rfl
  obtain ⟨-, huntriggered⟩ := hasks
  rw [Params.forMethod_placed hown, (hcarries.build_eq _ _ _).2] at huntriggered
  cases huntriggered

end Completion

end Latency

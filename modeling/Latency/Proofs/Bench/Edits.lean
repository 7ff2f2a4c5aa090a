import Latency.Proofs.Bench.Answers
import Latency.Proofs.Bench.Rows
/-!
# What a benchmark of edits comes to

Each edit replaces the document and is followed by one request.  `Edited` is a row of such rounds:
every text was read, every message written and every request answered.  The benchmark ends well when
the row is complete, whatever the answers say, and else with what the first round that is not
complete got stuck at.
-/

namespace Latency

/-! ## Positions -/

namespace Params

def TakesPosition (method : String) : Prop :=
  method ∉ ["textDocument/documentSymbol", "textDocument/documentLink",
    "textDocument/foldingRange", "textDocument/codeLens", "textDocument/semanticTokens/full",
    "textDocument/documentColor", "textDocument/formatting", "textDocument/inlayHint",
    "workspace/symbol"]

/-- The parameters ask for a position, be it as one of several. -/
def AsksAt (params : Json) (line col : Int) : Prop :=
  let place : Json := .obj [("line", .int line), ("character", .int col)]
  params.get? "position" = some place ∨ params.get? "positions" = some (.arr [place])

theorem asksAt_build {method : String} (h : TakesPosition method) (uri : String) (line col : Int)
    (trigger : Option String) : AsksAt (build method uri line col trigger) line col := by
  have hdocument : documentMethods.contains method = false := by
    rw [Bool.eq_false_iff, Ne, List.contains_iff_mem]
    exact fun hmem => h (List.mem_append_left _ hmem)
  have hothers : method ∉ ["textDocument/formatting", "textDocument/inlayHint",
      "workspace/symbol"] := fun hmem => h (List.mem_append_right documentMethods hmem)
  simp only [List.mem_cons, List.not_mem_nil, or_false, not_or] at hothers
  obtain ⟨hformatting, hhints, hsymbols⟩ := hothers
  unfold build
  rw [hdocument, if_neg Bool.false_ne_true, if_neg hformatting, if_neg hhints, if_neg hsymbols]
  repeat' split
  · exact .inl rfl
  · exact .inl rfl
  · exact .inl rfl
  · exact .inr rfl
  · exact .inl rfl

end Params

variable {τ : Type} [Clock τ]

/-! ## Rounds in a row -/

section Edited

variable {files : Files} {method uri : String} {timeout : τ}

/-- Rounds one after another, numbered from `i` on, with the responses of their requests and the
times these took.  In each the text of the edit is read, the change is written and the request is
answered. -/
inductive Edited (files : Files) (method uri : String) (timeout : τ) :
    Nat → Session τ → List ResolvedEdit → List (Json × τ) → Session τ → Prop where
  | nil (i : Nat) (s : Session τ) : Edited files method uri timeout i s [] [] s
  | cons {i : Nat} {s changed t u : Session τ} {edit : ResolvedEdit} {edits : List ResolvedEdit}
      {text : String} {answer : Json × τ} {answers : List (Json × τ)} :
      files.readText edit.path = .ok text →
        s.changeFile uri (.int (i + 2)) text = (.ok (), changed) →
          timedRequest method (Params.build method uri edit.line edit.col none) timeout changed =
            (.ok answer, t) →
            Edited files method uri timeout (i + 1) t edits answers u →
              Edited files method uri timeout i s (edit :: edits) (answer :: answers) u

/-- What a round gets stuck at, and the session then. -/
inductive Stuck (files : Files) (method uri : String) (timeout : τ) (i : Nat) (s : Session τ)
    (edit : ResolvedEdit) : SessionError → Session τ → Prop where
  | unread {cause : FileError} : files.readText edit.path = .error cause →
      Stuck files method uri timeout i s edit (.unreadable edit.path cause) s
  | unwritten {text : String} {e : SessionError} {t : Session τ} :
      files.readText edit.path = .ok text →
        s.changeFile uri (.int (i + 2)) text = (.error e, t) →
          Stuck files method uri timeout i s edit e t
  | unanswered {text : String} {changed t : Session τ} {e : SessionError} :
      files.readText edit.path = .ok text →
        s.changeFile uri (.int (i + 2)) text = (.ok (), changed) →
          timedRequest method (Params.build method uri edit.line edit.col none) timeout changed =
            (.error e, t) →
            Stuck files method uri timeout i s edit e t

variable {i : Nat} {s t : Session τ} {edits : List ResolvedEdit} {answers : List (Json × τ)}

theorem Edited.length_eq (h : Edited files method uri timeout i s edits answers t) :
    answers.length = edits.length := by
  induction h with
  | nil => rfl
  | cons _ _ _ _ ih => rw [List.length_cons, List.length_cons, ih]

/-- Rounds go on until all are complete or one gets stuck. -/
theorem exists_edited (files : Files) (method uri : String) (timeout : τ) (i : Nat)
    (s : Session τ) (edits : List ResolvedEdit) :
    ∃ front answers t, Edited files method uri timeout i s front answers t ∧
      (edits = front ∨ ∃ edit rest e next, edits = front ++ edit :: rest ∧
        Stuck files method uri timeout (i + front.length) t edit e next) := by
  induction edits generalizing i s with
  | nil => exact ⟨[], [], s, .nil i s, .inl rfl⟩
  | cons edit rest ih =>
    have hstuck {e : SessionError} {next : Session τ}
        (h : Stuck files method uri timeout i s edit e next) :
        ∃ front answers t, Edited files method uri timeout i s front answers t ∧
          (edit :: rest = front ∨ ∃ edit' rest' e next, edit :: rest = front ++ edit' :: rest' ∧
            Stuck files method uri timeout (i + front.length) t edit' e next) :=
      ⟨[], [], s, .nil i s, .inr ⟨edit, rest, e, next, rfl, h⟩⟩
    cases hread : files.readText edit.path with
    | error cause => exact hstuck (.unread hread)
    | ok text =>
      cases hchange : s.changeFile uri (.int (i + 2)) text with
      | mk result changed =>
        cases result with
        | error e => exact hstuck (.unwritten hread hchange)
        | ok u =>
          cases hrequest : timedRequest method (Params.build method uri edit.line edit.col none)
              timeout changed with
          | mk result next =>
            cases result with
            | error e => exact hstuck (.unanswered hread hchange hrequest)
            | ok answer =>
              obtain ⟨front, answers, t, hedited, hend⟩ := ih (i + 1) next
              refine ⟨edit :: front, answer :: answers, t, .cons hread hchange hrequest hedited, ?_⟩
              rcases hend with rfl | ⟨edit', rest', e, last, rfl, hlast⟩
              · exact .inl rfl
              · refine .inr ⟨edit', rest', e, last, rfl, ?_⟩
                rwa [List.length_cons, Nat.add_right_comm, ← Nat.add_assoc] at *

/-- What was written in a row of rounds, and what the responses are to. -/
theorem Edited.sent (h : Edited files method uri timeout i s edits answers t)
    (hnext : s.nextId = i + 2) :
    t.process.sent = s.process.sent ++
        (edits.zipIdx i).flatMap (fun x => editMessages files method uri x.2 x.1) ∧
      ∀ j (hj : j < answers.length), RespondsTo (.int (i + j + 2 : Nat)) answers[j].1 := by
  induction h with
  | nil i s => exact ⟨by simp, fun j hj => absurd hj (Nat.not_lt_zero j)⟩
  | @cons i s changed t u edit edits text answer answers hread hchange hrequest _ ih =>
    obtain ⟨hkept, hchanged⟩ := Session.write_ok hchange
    obtain ⟨hsent, hnumber, hresponds⟩ := timedRequest_answered hrequest
    rw [hkept, hnext] at hsent hnumber hresponds
    obtain ⟨hrest, hothers⟩ := ih (by omega)
    have hmessages : editMessages files method uri i edit =
        [Wire.didChange uri (i + 2) text,
          Wire.request (i + 2) method (Params.build method uri edit.line edit.col none)] := by
      simp only [editMessages, hread]
    have hcons : ((edit :: edits).zipIdx i).flatMap
          (fun x => editMessages files method uri x.2 x.1) =
        editMessages files method uri i edit ++
          (edits.zipIdx (i + 1)).flatMap (fun x => editMessages files method uri x.2 x.1) := rfl
    constructor
    · rw [hrest, hsent, hchanged, hcons, hmessages, List.append_assoc, List.append_assoc]
      rfl
    · intro j hj
      cases j with
      | zero => exact hresponds
      | succ j =>
        have hother := hothers j (by simpa using hj)
        rwa [Nat.add_right_comm i 1 j, Nat.add_assoc i j 1] at hother

theorem Stuck.cases_of_read (hfits : Clock.fits timeout = true) {edit : ResolvedEdit}
    {e : SessionError} {next : Session τ} (h : Stuck files method uri timeout i s edit e next)
    (hread : ∃ text, files.readText edit.path = .ok text) :
    e = .timeout ∨ e = .ended ∨ ∃ label failure, e = .write label failure := by
  obtain ⟨text, hread⟩ := hread
  cases h with
  | unread hunread =>
    rw [hunread] at hread
    cases hread
  | unwritten _ hchange =>
    obtain ⟨failure, he⟩ := write_error_write hchange
    exact .inr (.inr ⟨s.label, failure, he⟩)
  | @unanswered _ changed _ _ _ _ hrequest =>
    rcases timedRequest_error_cases hfits hrequest with he | he | ⟨failure, he⟩
    · exact .inl he
    · exact .inr (.inl he)
    · exact .inr (.inr ⟨changed.label, failure, he⟩)

end Edited

/-! ## The rounds of the benchmark -/

section Rounds

variable {files : Files} {b : BenchSettings τ} {method : String} {ready : Session.Ready τ}
  {s t : Session τ} {edits rest : List ResolvedEdit} {answers : List (Json × τ)}
  {samples : List (Sample τ)} {i total : Nat}

def editEnd (files : Files) (b : BenchSettings τ) (method : String) (total : Nat)
    (ready : Session.Ready τ) (samples : List (Sample τ)) (i : Nat) (edits : List ResolvedEdit)
    (s : Session τ) : Ended τ × Session τ :=
  ((editRounds files b method total ready samples i edits s).1.outcome,
    (editRounds files b method total ready samples i edits s).2)

theorem editEnd_nil : editEnd files b method total ready samples i [] s =
    (.ok (.ok samples (some ready.diagnostics) ready.memory), s) := by
  rfl

theorem editEnd_stuck {edit : ResolvedEdit} {e : SessionError} {next : Session τ}
    (h : Stuck files method ready.uri b.timeout i s edit e next) :
    editEnd files b method total ready samples i (edit :: rest) s =
      (next.failure "" e ready.memory, next) := by
  cases h with
  | unread hread => simp only [editEnd, editRounds, hread]
  | unwritten hread hchange => simp only [editEnd, editRounds, hread, hchange]
  | unanswered hread hchange hrequest => simp only [editEnd, editRounds, hread, hchange, hrequest]

/-- Complete rounds leave the others to be done, and their responses are kept as they are. -/
theorem editEnd_edited (h : Edited files method ready.uri b.timeout i s edits answers t) :
    editEnd files b method total ready samples i (edits ++ rest) s =
      editEnd files b method total ready
        (samples ++ answers.map fun answer => responseSample b.responseLimit answer.1 answer.2)
        (i + edits.length) rest t := by
  induction h generalizing samples with
  | nil => simp
  | @cons i s changed t u edit edits text answer answers hread hchange hrequest _ ih =>
    have hround : editEnd files b method total ready samples i (edit :: (edits ++ rest)) s =
        editEnd files b method total ready
          (samples ++ [responseSample b.responseLimit answer.1 answer.2]) (i + 1)
          (edits ++ rest) t := by
      simp only [editEnd, editRounds, hread, hchange, hrequest, Report.after]
    rw [List.cons_append, hround, ih, List.append_assoc, List.length_cons, Nat.add_right_comm,
      Nat.add_assoc]
    rfl

theorem Edited.editEnd_eq (h : Edited files method ready.uri b.timeout 0 s edits answers t) :
    editEnd files b method total ready [] 0 edits s =
      (.ok (.ok (answers.map fun answer => responseSample b.responseLimit answer.1 answer.2)
        (some ready.diagnostics) ready.memory), t) := by
  rw [← List.append_nil edits, editEnd_edited h, editEnd_nil, List.nil_append]

theorem Edited.editEnd_stuck (h : Edited files method ready.uri b.timeout 0 s edits answers t)
    {edit : ResolvedEdit} {e : SessionError} {next : Session τ}
    (hstuck : Stuck files method ready.uri b.timeout edits.length t edit e next) :
    editEnd files b method total ready [] 0 (edits ++ edit :: rest) s =
      (next.failure "" e ready.memory, next) := by
  rw [editEnd_edited h]
  apply Latency.editEnd_stuck
  rwa [Nat.zero_add]

end Rounds

/-! ## On a machine -/

section Machine

variable {server : Server} {b : BenchSettings τ} {h : Host τ} {info : Diagnostics τ}
  {memory : Option Int} {s : Session τ}

theorem benchEdits_of_indexed? (hindexed : h.indexed? server b = some (info, memory, s))
    (method : String) (edits : List ResolvedEdit) :
    (benchEdits server b method edits h).1.outcome =
        (editEnd h.files b method edits.length ⟨targetUri h.files b, info, memory⟩ [] 0 edits s).1 ∧
      (benchEdits server b method edits h).2.launched = h.launched ++
        [⟨(editEnd h.files b method edits.length ⟨targetUri h.files b, info, memory⟩ [] 0
          edits s).2.close.process, b.directory⟩] := by
  exact onSession_of_indexed? hindexed _

/-- **What a benchmark of edits comes to**, once its server has indexed the document.  It ends well
exactly if in each round the text is read, the change and the request are written and the answer
comes in time, and then its samples hold the answers in order, whatever they say: the answer to the
request behind change number `i`, at the position of that edit.  If a text cannot be read, this is
the failure, and nothing of this round or a later one is written; only a path that no file can have
breaks the benchmark off.  Else a message could not be written, or a request was not answered in
time or found the end of the stream.  The memory of a failure is the one that was sampled after
indexing. -/
theorem benchEdits_outcome (server : Server) (b : BenchSettings τ) (method : String)
    (edits : List ResolvedEdit) (h : Host τ) (info : Diagnostics τ) (memory : Option Int)
    (s : Session τ) (hfits : Clock.fits b.timeout = true)
    (hindexed : h.indexed? server b = some (info, memory, s)) :
    let uri := targetUri h.files b
    let Complete := Edited h.files method uri b.timeout 0 s
    let run := benchEdits server b method edits h
    let Sent (done : List ResolvedEdit) : Prop := ∃ l, run.2.launched = h.launched ++ [l] ∧
      l.process.sent = s.process.sent ++
        done.zipIdx.flatMap fun x => editMessages h.files method uri x.2 x.1
    (∀ samples diagnostics kb, run.1.outcome = .ok (.ok samples diagnostics kb) ↔
      diagnostics = some info ∧ kb = memory ∧ ∃ answers t, Complete edits answers t ∧
        List.Forall₂ (Sample.IsOf b.responseLimit) answers samples) ∧
    (∀ answers t, Complete edits answers t →
      answers.length = edits.length ∧ Sent edits ∧
      ∀ i (hi : i < answers.length), RespondsTo (.int (i + 2 : Nat)) answers[i].1) ∧
    (Params.TakesPosition method → ∀ line col,
      Params.AsksAt (Params.build method uri line col none) line col) ∧
    (∀ front edit rest answers t cause, edits = front ++ edit :: rest →
      Complete front answers t → h.files.readText edit.path = .error cause →
      Sent front ∧
      (cause ≠ .badPath → run.1.outcome =
        .ok (.failed (edit.path.text ++ ": " ++ cause.reason) t.logs memory)) ∧
      (cause = .badPath → run.1.outcome = .error ⟨"ValueError", FileError.badPath.reason⟩)) ∧
    (∀ front edit rest answers t e next, edits = front ++ edit :: rest →
      Complete front answers t → (∃ text, h.files.readText edit.path = .ok text) →
      Stuck h.files method uri b.timeout front.length t edit e next →
      (e = .timeout ∨ e = .ended ∨ ∃ label failure, e = .write label failure) ∧
      run.1.outcome = .ok (.failed e.message next.logs memory)) ∧
    ((∃ answers t, Complete edits answers t) ∨
      ∃ front edit rest answers t e next, edits = front ++ edit :: rest ∧
        Complete front answers t ∧
        Stuck h.files method uri b.timeout front.length t edit e next) := by
  intro uri Complete run Sent
  obtain ⟨houtcome, hlaunched⟩ := benchEdits_of_indexed? hindexed method edits
  have hnext : s.nextId = 0 + 2 := Host.nextId_of_indexed? hindexed
  have hsent {front : List ResolvedEdit} {answers : List (Json × τ)} {t : Session τ}
      (hfront : Complete front answers t)
      (hend : (editEnd h.files b method edits.length ⟨uri, info, memory⟩ [] 0 edits s).2 = t) :
      Sent front := by
    refine ⟨_, hlaunched, ?_⟩
    rw [hend, ← (hfront.sent hnext).1]
    exact Process.sent_terminate t.process t.clock
  have hexists := exists_edited h.files method uri b.timeout 0 s edits
  have hor : (∃ answers t, Complete edits answers t) ∨
      ∃ front edit rest answers t e next, edits = front ++ edit :: rest ∧
        Complete front answers t ∧
        Stuck h.files method uri b.timeout front.length t edit e next := by
    obtain ⟨front, answers, t, hfront, rfl | ⟨edit, rest, e, next, hedits, hstuck⟩⟩ := hexists
    · exact .inl ⟨answers, t, hfront⟩
    · rw [Nat.zero_add] at hstuck
      exact .inr ⟨front, edit, rest, answers, t, e, next, hedits, hfront, hstuck⟩
  refine ⟨?_, ?_, ?_, ?_, ?_, hor⟩
  · intro samples diagnostics kb
    rw [houtcome]
    simp only [Sample.forall₂_isOf_iff]
    constructor
    · intro hend
      rcases hor with ⟨answers, t, hcomplete⟩ |
        ⟨front, edit, rest, answers, t, e, next, rfl, hfront, hstuck⟩
      · rw [hcomplete.editEnd_eq] at hend
        obtain ⟨rfl, rfl, rfl⟩ := Outcome.ok.inj (Except.ok.inj hend)
        exact ⟨rfl, rfl, answers, t, hcomplete, rfl⟩
      · rw [hfront.editEnd_stuck hstuck] at hend
        exact absurd hend Session.failure_ne_ok
    · rintro ⟨rfl, rfl, answers, t, hcomplete, rfl⟩
      rw [hcomplete.editEnd_eq]
  · intro answers t hcomplete
    refine ⟨hcomplete.length_eq, hsent hcomplete ?_, fun i hi => ?_⟩
    · rw [hcomplete.editEnd_eq]
    · have hresponds := (hcomplete.sent hnext).2 i hi
      rwa [Nat.zero_add] at hresponds
  · exact fun htakes line col => Params.asksAt_build htakes uri line col none
  · rintro front edit rest answers t cause rfl hfront hread
    have hend : editEnd h.files b method (front ++ edit :: rest).length ⟨uri, info, memory⟩ [] 0
        (front ++ edit :: rest) s = (t.failure "" (.unreadable edit.path cause) memory, t) :=
      hfront.editEnd_stuck (.unread hread)
    refine ⟨hsent hfront (congrArg Prod.snd hend), fun hcause => ?_, ?_⟩
    · have hcrash : (SessionError.unreadable edit.path cause).crash? = none := by
        cases cause with
        | badPath => exact absurd rfl hcause
        | _ => rfl
      rw [houtcome, hend]
      exact Session.failure_of_no_crash hcrash memory t
    · rintro rfl
      rw [houtcome, hend]
      rfl
  · rintro front edit rest answers t e next rfl hfront hread hstuck
    have hcases := hstuck.cases_of_read hfits hread
    refine ⟨hcases, ?_⟩
    have hcrash : e.crash? = none := by
      obtain rfl | rfl | ⟨label, failure, rfl⟩ := hcases <;> rfl
    rw [houtcome, hfront.editEnd_stuck hstuck]
    exact Session.failure_of_no_crash hcrash memory next

end Machine

section Hover

def hoverEdits : List ResolvedEdit :=
  [⟨⟨"/", ["a.sol"]⟩, 0, 1, none⟩, ⟨⟨"/", ["a.sol"]⟩, 2, 3, none⟩]

def newTextHost : Host Rat :=
  { hoverHost with files := ⟨⟨"/", []⟩,
      [(["a.sol"], .file []), (["b.sol"], .file (Frame.ascii "new"))]⟩ }

def newTextEdits : List ResolvedEdit :=
  [⟨⟨"/", ["b.sol"]⟩, 0, 1, none⟩, ⟨⟨"/", ["b.sol"]⟩, 2, 3, none⟩]

/-- Whether a benchmark ended well with both answers of the server that hovers. -/
def areAnswered : Ended Rat → Bool
  | .ok (.ok [
      { raw := some (.obj [("jsonrpc", .str "2.0"), ("id", .num (.int 2)), ("result", .null)]),
        response := .null, .. },
      { raw := some (.obj [("jsonrpc", .str "2.0"), ("id", .num (.int 3)),
          ("result", .bool true)]), response := .bool true, .. }] ..) => true
  | _ => false

/-- The answer after the first edit says nothing, and the benchmark ends well all the same. -/
theorem benchEdits_outcome_hover :
    let nothing : Json := .obj [("jsonrpc", .str "2.0"), ("id", .int 2), ("result", .null)]
    let something : Json := .obj [("jsonrpc", .str "2.0"), ("id", .int 3), ("result", .bool true)]
    let document : String × Json := ("textDocument", .obj [("uri", .str "file:///a.sol")])
    let run := benchEdits hoverServer hoverSettings "textDocument/hover" newTextEdits newTextHost
    ∃ info memory s ms ms',
      newTextHost.indexed? hoverServer hoverSettings = some (info, memory, s) ∧
      run.1.outcome = .ok (.ok [{ ms := ms, raw := some nothing, response := .null },
        { ms := ms', raw := some something, response := .bool true }] (some info) memory) ∧
      ∃ l, run.2.launched = [l] ∧ l.process.sent = s.process.sent ++ [
        .obj [("jsonrpc", .str "2.0"), ("method", .str "textDocument/didChange"),
          ("params", .obj [
            ("textDocument", .obj [("uri", .str "file:///a.sol"), ("version", .int 2)]),
            ("contentChanges", .arr [.obj [("text", .str "new")]])])],
        .obj [("jsonrpc", .str "2.0"), ("id", .int 2), ("method", .str "textDocument/hover"),
          ("params", .obj [document,
            ("position", .obj [("line", .int 0), ("character", .int 1)])])],
        .obj [("jsonrpc", .str "2.0"), ("method", .str "textDocument/didChange"),
          ("params", .obj [
            ("textDocument", .obj [("uri", .str "file:///a.sol"), ("version", .int 3)]),
            ("contentChanges", .arr [.obj [("text", .str "new")]])])],
        .obj [("jsonrpc", .str "2.0"), ("id", .int 3), ("method", .str "textDocument/hover"),
          ("params", .obj [document,
            ("position", .obj [("line", .int 2), ("character", .int 3)])])]] := by
  intro nothing something document run
  have hsome : (newTextHost.indexed? hoverServer hoverSettings).isSome = true := by
    decide +kernel
  obtain ⟨⟨info, memory, s⟩, hindexed⟩ := Option.isSome_iff_exists.1 hsome
  obtain ⟨hok, hcomplete, -⟩ := benchEdits_outcome hoverServer hoverSettings "textDocument/hover"
    newTextEdits newTextHost info memory s rfl hindexed
  have hanswered : areAnswered run.1.outcome = true := by decide +kernel
  unfold areAnswered at hanswered
  split at hanswered
  · next ms ms' diagnostics kb houtcome =>
    obtain ⟨rfl, rfl, answers, t, hrow, -⟩ := (hok _ diagnostics kb).1 houtcome
    obtain ⟨-, ⟨l, hlaunched, hsent⟩, -⟩ := hcomplete answers t hrow
    have hnew : newTextHost.files.readText ⟨"/", ["b.sol"]⟩ = .ok "new" := by decide +kernel
    have huri : targetUri newTextHost.files hoverSettings = "file:///a.sol" := by decide +kernel
    refine ⟨info, kb, s, ms, ms', hindexed, houtcome, l, hlaunched, ?_⟩
    rw [hsent, huri]
    simp only [newTextEdits, List.zipIdx_cons, List.zipIdx_nil, List.flatMap_cons, List.flatMap_nil,
      editMessages, hnew]
    rfl
  · cases hanswered

/-- An edit whose text cannot be read because its path has a null character in it. -/
def nullEdit : ResolvedEdit := ⟨⟨"/", ["a\x00b"]⟩, 0, 0, none⟩

/-- Such an edit is the first to be made, and the benchmark has no outcome: it breaks off. -/
theorem benchEdits_breaks_off :
    (hoverHost.indexed? hoverServer hoverSettings).isSome = true ∧
      hoverHost.files.readText nullEdit.path = .error .badPath ∧
      ∃ crash, (benchEdits hoverServer hoverSettings "textDocument/hover" [nullEdit]
        hoverHost).1.outcome = .error crash := by
  have hbroken : (match (benchEdits hoverServer hoverSettings "textDocument/hover" [nullEdit]
      hoverHost).1.outcome with
      | .error _ => true
      | .ok _ => false) = true := by
    decide +kernel
  refine ⟨by decide +kernel, by rfl, ?_⟩
  split at hbroken
  · next crash houtcome => exact ⟨crash, houtcome⟩
  · cases hbroken

end Hover

end Latency

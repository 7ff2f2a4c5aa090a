import Latency.Ranking
import Latency.Proofs.Bench.Protocol
import Latency.Proofs.Results
/-!
# Rows and their ranking

A benchmark that ends well has a sample of each measured response, and its row is ranked if the
summary of the first one says something.  A sweep makes one row of each server.  A request without
edits is measured only as far as its responses are usable.  With edits any response is kept, and
then the ranking lets in what a summary makes look like an answer (`Overrated`).
-/

namespace Latency

variable {τ : Type}

/-! ## From outcomes to rows -/

def MadeOf (limit : Nat) (P : Json → Prop) (samples : List (Sample τ)) : Prop :=
  ∀ sample ∈ samples, ∃ response ms, sample = responseSample limit response ms ∧ P response

theorem MadeOf.nil (limit : Nat) (P : Json → Prop) : MadeOf (τ := τ) limit P [] := by
  simp [MadeOf]

theorem MadeOf.snoc {limit : Nat} {P : Json → Prop} {samples : List (Sample τ)}
    (h : MadeOf limit P samples) {response : Json} (hresponse : P response) (ms : τ) :
    MadeOf limit P (samples ++ [responseSample limit response ms]) := by
  intro sample hsample
  rcases List.mem_append.1 hsample with hsample | hsample
  · exact h sample hsample
  · exact ⟨response, ms, List.mem_singleton.1 hsample, hresponse⟩

theorem settleOutcome_ok {result : Ended τ} {samples : List (Sample τ)}
    {diagnostics : Option (Diagnostics τ)} {memory : Option Int}
    (h : settleOutcome result = .ok samples diagnostics memory) :
    result = .ok (.ok samples diagnostics memory) := by
  cases result with
  | ok outcome => exact congrArg Except.ok h
  | error crash => cases h

section Rows

variable [Measure τ] {label : String} {limit : Nat} {outcome : Outcome τ} {row : Row τ}

theorem Stats.ne_nil_of_ofSamples_ok {samples : List τ} {stats : Stats τ}
    (h : Stats.ofSamples samples = .ok stats) : samples ≠ [] := by
  rintro rfl
  cases h

/-- A good row has all samples of its benchmark, of which there is one. -/
theorem Outcome.toRow_ok (h : outcome.toRow label limit = .ok row) (hok : row.status = .ok) :
    ∃ first rest diagnostics memory, outcome = .ok (first :: rest) diagnostics memory ∧
      row.iterations = first :: rest ∧ row.summary = first.response := by
  cases outcome with
  | ok samples diagnostics memory =>
    obtain ⟨stats, hstats, hrow⟩ := bind_ok h
    obtain rfl := Except.ok.inj hrow
    cases samples with
    | nil => exact absurd rfl (Stats.ne_nil_of_ofSamples_ok hstats)
    | cons first rest => exact ⟨first, rest, diagnostics, memory, rfl, rfl, rfl⟩
  | invalid response diagnostics memory =>
    obtain ⟨summary, -, hrow⟩ := bind_ok h
    obtain rfl := Except.ok.inj hrow
    cases hok
  | failed error logs memory =>
    obtain rfl := Except.ok.inj h
    cases hok

theorem mem_rankRows {rows : List (Row τ)} :
    row ∈ rankRows rows ↔
      row ∈ rows ∧ row.status = .ok ∧ isMeaningful row.summary = true := by
  rw [rankRows, (Order.perm_sort _ _).mem_iff, List.mem_filter, Row.isRanked, Bool.and_eq_true,
    decide_eq_true_eq]

end Rows

/-! ## Sweeps -/

section Sweeps

variable [Measure τ] {task : Task} {b : BenchSettings τ} {params : String → String → Json}
  {verbose : Bool} {server : Server} {servers : List Server} {h : Host τ}

/-- What a sweep makes of the benchmark of a server: its row, unless that or the lines that show it
cannot be made. -/
def Task.row (task : Task) (b : BenchSettings τ) (params : String → String → Json)
    (server : Server) (h : Host τ) : Except Fault (Row τ) :=
  match (settleOutcome (task.run b params server h).1.outcome).toRow server.label
      b.responseLimit with
  | .error fault => .error fault
  | .ok row =>
    match verdictLines row with
    | .error fault => .error fault
    | .ok _ => .ok row

theorem Task.toRow_of_row {row : Row τ} (hrow : task.row b params server h = .ok row) :
    (settleOutcome (task.run b params server h).1.outcome).toRow server.label b.responseLimit =
      .ok row := by
  unfold Task.row at hrow
  split at hrow
  · cases hrow
  · next hmade =>
    split at hrow
    · cases hrow
    · rw [hmade, hrow]

/-- A benchmark reads the files and leaves them as they are. -/
theorem Task.files_run (task : Task) (b : BenchSettings τ) (params : String → String → Json)
    (server : Server) (h : Host τ) : (task.run b params server h).2.files = h.files := by
  have hcomposes : Host.Composes fun h h' : Host τ => h'.files = h.files :=
    ⟨fun h => rfl, fun hfirst hsecond => hsecond.trans hfirst⟩
  refine Task.run_across hcomposes ?_ h
  intro α work h next result _ hsession
  have hstarted := h.files_start server b.directory
  unfold Host.withSession at hsession
  split at hsession
  · next hstart =>
    obtain ⟨-, rfl⟩ := Prod.mk.inj hsession
    rwa [hstart] at hstarted
  · next hstart =>
    obtain ⟨-, rfl⟩ := Prod.mk.inj hsession
    rwa [hstart] at hstarted

theorem rows_sweepTask_nil : (sweepTask task b params verbose [] h).1.rows = .ok [] := by
  rfl

theorem rows_sweepTask_cons : (sweepTask task b params verbose (server :: servers) h).1.rows =
    match task.row b params server h with
    | .error fault => .error fault
    | .ok row =>
      (sweepTask task b params verbose servers (task.run b params server h).2).1.rows.map
        (row :: ·) := by
  unfold sweepTask Task.row
  rw [sweep]
  cases hmade : (settleOutcome (task.run b params server h).1.outcome).toRow server.label
      b.responseLimit with
  | error fault => simp only [hmade]
  | ok row =>
    cases hlines : verdictLines row with
    | error fault => simp only [hmade, hlines]
    | ok lines => simp only [hmade, hlines]

/-- A sweep that can be shown has a row of each server, in order. -/
theorem forall₂_of_sweepTask {rows : List (Row τ)}
    (hrows : (sweepTask task b params verbose servers h).1.rows = .ok rows) :
    List.Forall₂ (fun server row => ∃ h', task.row b params server h' = .ok row) servers rows := by
  induction servers generalizing h rows with
  | nil =>
    obtain rfl := Except.ok.inj hrows
    exact .nil
  | cons server rest ih =>
    rw [rows_sweepTask_cons] at hrows
    split at hrows
    · cases hrows
    · next hrow =>
      obtain ⟨others, hothers, rfl⟩ := map_ok hrows
      exact .cons ⟨h, hrow⟩ (ih hothers)

theorem files_sweepTask : (sweepTask task b params verbose servers h).2.files = h.files := by
  induction servers generalizing h with
  | nil => rfl
  | cons server rest ih =>
    have hfirst := task.files_run b params server h
    unfold sweepTask at ih ⊢
    rw [sweep]
    simp only
    split
    · exact hfirst
    split
    · exact hfirst
    · exact ih.trans hfirst

/-- The sweep of one server makes its row. -/
theorem rows_sweepTask_singleton {row : Row τ} :
    (sweepTask task b params verbose [server] h).1.rows = .ok [row] ↔
      task.row b params server h = .ok row := by
  rw [rows_sweepTask_cons]
  cases task.row b params server h with
  | error fault => simp
  | ok made => simp [rows_sweepTask_nil, Except.map]

end Sweeps

/-! ## Responses behind samples -/

section Samples

variable [Clock τ] {server : Server} {b : BenchSettings τ} {h : Host τ}
  {samples out : List (Sample τ)} {diagnostics : Option (Diagnostics τ)} {memory : Option Int}

omit [Clock τ] in
theorem Session.failure_ne_ok {place : String} {e : SessionError} {kb : Option Int}
    {s : Session τ} : s.failure place e kb ≠ .ok (.ok out diagnostics memory) := by
  unfold Session.failure
  split
  all_goals
    intro h
    cases h

omit [Clock τ] in
theorem notStarted_ne_ok {e : SessionError} :
    notStarted e ≠ .ok (.ok out diagnostics memory) := by
  unfold notStarted
  split
  all_goals
    intro h
    cases h

theorem Host.withSession_ok {α : Type} {directory : Path} {tracing : Bool}
    {work : Session τ → α × Session τ} {result : α} {next : Host τ}
    (hsession : h.withSession server directory tracing work = (.ok result, next)) :
    ∃ s, (work s).1 = result := by
  unfold Host.withSession at hsession
  split at hsession
  · cases (Prod.mk.inj hsession).1
  · exact ⟨_, Except.ok.inj (Prod.mk.inj hsession).1⟩

theorem Session.prepare_ne_ok {files : Files} {s next : Session τ} {lines : List String}
    {ended : Ended τ} (hprepare : s.prepare files b = (lines, .error ended, next)) :
    ended ≠ .ok (.ok out diagnostics memory) := by
  unfold Session.prepare at hprepare
  split at hprepare
  · obtain ⟨-, hrest⟩ := Prod.mk.inj hprepare
    obtain rfl := Except.error.inj (Prod.mk.inj hrest).1
    exact Session.failure_ne_ok
  split at hprepare
  · obtain ⟨-, hrest⟩ := Prod.mk.inj hprepare
    obtain rfl := Except.error.inj (Prod.mk.inj hrest).1
    exact Session.failure_ne_ok
  · cases (Prod.mk.inj (Prod.mk.inj hprepare).2).1

theorem onSession_ok {work : Session.Ready τ → Session τ → Report τ × Session τ}
    (hend : (onSession server b work h).1.outcome = .ok (.ok out diagnostics memory)) :
    ∃ ready s, (work ready s).1.outcome = .ok (.ok out diagnostics memory) := by
  unfold onSession at hend
  split at hend
  · exact absurd hend notStarted_ne_ok
  next report next hsession =>
  obtain ⟨s, hreport⟩ := Host.withSession_ok hsession
  subst hreport
  unfold Session.prepareAndWork at hend
  split at hend
  · next hprepare => exact absurd hend (Session.prepare_ne_ok hprepare)
  · next ready prepared _ => exact ⟨ready, prepared, hend⟩

theorem requestRounds_madeOf {method : String} {params : Json} {ready : Session.Ready τ}
    {i n : Nat} {s : Session τ}
    (hsamples : MadeOf b.responseLimit (isValidResponse · = true) samples)
    (hend : (requestRounds b method params ready samples i n s).1.outcome =
      .ok (.ok out diagnostics memory)) :
    MadeOf b.responseLimit (isValidResponse · = true) out := by
  induction n generalizing samples i s with
  | zero =>
    obtain ⟨rfl, -, -⟩ := Outcome.ok.inj (Except.ok.inj hend)
    exact hsamples
  | succ n ih =>
    unfold requestRounds at hend
    split at hend
    · exact absurd hend Session.failure_ne_ok
    · next response ms next _ =>
      split at hend
      · exact ih hsamples hend
      · split at hend
        · next husable => exact ih (hsamples.snoc husable ms) hend
        · cases hend

theorem editRounds_madeOf {files : Files} {method : String} {total : Nat}
    {ready : Session.Ready τ} {i : Nat} {edits : List ResolvedEdit} {s : Session τ}
    (hsamples : MadeOf b.responseLimit (fun _ => True) samples)
    (hend : (editRounds files b method total ready samples i edits s).1.outcome =
      .ok (.ok out diagnostics memory)) :
    MadeOf b.responseLimit (fun _ => True) out := by
  induction edits generalizing samples i s with
  | nil =>
    obtain ⟨rfl, -, -⟩ := Outcome.ok.inj (Except.ok.inj hend)
    exact hsamples
  | cons edit rest ih =>
    unfold editRounds at hend
    simp only at hend
    split at hend
    · exact absurd hend Session.failure_ne_ok
    split at hend
    · exact absurd hend Session.failure_ne_ok
    split at hend
    · exact absurd hend Session.failure_ne_ok
    next response ms next _ => exact ih (hsamples.snoc trivial ms) hend

end Samples

/-! ## Summaries -/

/-- The ways in which a response is not usable. -/
theorem unusable_cases {response : Json} (h : isValidResponse response = false) :
    response.has "error" = true ∨ response.get? "result" = none ∨
      response.get? "result" = some .null ∨ response.get? "result" = some (.arr []) ∨
      ∃ members, response.get? "result" = some (.obj members) ∧
        members.lookup "items" = some (.arr []) := by
  unfold isValidResponse at h
  split at h
  · next herror => exact .inl herror
  right
  split at h
  · next hresult => exact .inl hresult
  · next hresult => exact .inr (.inl hresult)
  · next items hresult =>
    obtain rfl : items = [] := by simpa using h
    exact .inr (.inr (.inl hresult))
  · next members hresult =>
    split at h
    · next items hitems =>
      obtain rfl : items = [] := by simpa using h
      exact .inr (.inr (.inr ⟨members, hresult, hitems⟩))
    · cases h
  · cases h

theorem get?_eq_none_of_has {key : String} {j : Json} (h : j.has key = false) :
    j.get? key = none := by
  rwa [Json.has, Option.isSome_eq_false_iff, Option.isNone_iff_eq_none] at h

theorem responseSummary_of_get? {response value : Json} (limit : Nat)
    (herror : response.has "error" = false) (hresult : response.get? "result" = some value) :
    responseSummary limit response = shorten limit value := by
  simp only [responseSummary, get?_eq_none_of_has herror, hresult]

theorem responseSummary_of_none {response : Json} (limit : Nat)
    (herror : response.has "error" = false) (hresult : response.get? "result" = none)
    (hparams : response.get? "params" = none) : responseSummary limit response = .null := by
  simp only [responseSummary, get?_eq_none_of_has herror, hresult, hparams]

/-- A value that says nothing is only taken for an answer when its text is cut short. -/
theorem length_lt_of_isMeaningful_shorten {limit : Nat} {value : Json}
    (h : isMeaningful (shorten limit value) = true) (hvalue : isMeaningful value = false) :
    0 < limit ∧ limit < (Json.write .plain value).length := by
  unfold shorten at h
  split at h
  · rw [hvalue] at h
    cases h
  · next hlimit =>
    simp only at h
    split at h
    · next hlong => exact ⟨Nat.pos_of_ne_zero hlimit, hlong⟩
    · rw [hvalue] at h
      cases h

theorem isMeaningful_of_error {response : Json} (h : response.has "error" = true) (limit : Nat) :
    isMeaningful (responseSummary limit response) = true := by
  obtain ⟨error, herror⟩ := Option.isSome_iff_exists.1 h
  simp only [responseSummary, herror, errorSummary]
  split <;> rfl

/-- The responses that are not usable and yet have a summary that seems to say something: errors,
completion lists without items, notifications, and null and the empty array where the limit cuts
their text. -/
inductive Overrated (limit : Nat) (response : Json) : Prop where
  | error : response.has "error" = true → Overrated limit response
  | noItems {members : List (String × Json)} : response.get? "result" = some (.obj members) →
      members.lookup "items" = some (.arr []) → Overrated limit response
  | params {value : Json} : response.get? "result" = none →
      response.get? "params" = some value → Overrated limit response
  | cutNull : response.get? "result" = some .null → 0 < limit → limit < 4 →
      Overrated limit response
  | cutEmpty : response.get? "result" = some (.arr []) → limit = 1 → Overrated limit response

theorem usable_or_overrated {limit : Nat} {response : Json}
    (h : isMeaningful (responseSummary limit response) = true) :
    isValidResponse response = true ∨ Overrated limit response := by
  by_contra hneither
  obtain ⟨hvalid, hoverrated⟩ := not_or.1 hneither
  have herror : response.has "error" = false :=
    Bool.eq_false_iff.2 fun herror => hoverrated (.error herror)
  rcases unusable_cases (Bool.eq_false_iff.2 hvalid) with
    herror' | hresult | hresult | hresult | ⟨members, hresult, hitems⟩
  · exact hoverrated (.error herror')
  · cases hparams : response.get? "params" with
    | none =>
      rw [responseSummary_of_none limit herror hresult hparams] at h
      cases h
    | some value => exact hoverrated (.params hresult hparams)
  · rw [responseSummary_of_get? limit herror hresult] at h
    obtain ⟨hpos, hlt⟩ := length_lt_of_isMeaningful_shorten h rfl
    exact hoverrated (.cutNull hresult hpos hlt)
  · rw [responseSummary_of_get? limit herror hresult] at h
    obtain ⟨hpos, hlt⟩ := length_lt_of_isMeaningful_shorten h rfl
    have htext : (Json.write .plain (.arr [])).length = 2 := rfl
    exact hoverrated (.cutEmpty hresult (by omega))
  · exact hoverrated (.noItems hresult hitems)

/-! ## The ranking -/

/-- **What the ranking lets in.**  A ranked row of a request benchmark sums up its first response.
Without edits this is usable.  With edits it is usable or one of the responses that only seem to say
something; in particular a null or an empty array is never ranked unless the limit cuts its text,
while an error always is. -/
theorem Task.run_ranked [Measure τ] (task : Task) (b : BenchSettings τ)
    (params : String → String → Json) (server : Server) (h : Host τ) (row : Row τ)
    (rows : List (Row τ))
    (htask : (∃ method, task = .requests method) ∨ ∃ method edits, task = .edits method edits)
    (hrow : (settleOutcome (task.run b params server h).1.outcome).toRow server.label
      b.responseLimit = .ok row) :
    (row ∈ rankRows rows → ∃ sample response, row.iterations.head? = some sample ∧
      sample.raw = some response ∧ row.summary = responseSummary b.responseLimit response ∧
      (isValidResponse response = true ∨
        (∃ method edits, task = .edits method edits) ∧ Overrated b.responseLimit response)) ∧
    (row ∈ rows → row.status = .ok → ∀ sample response, row.iterations.head? = some sample →
      sample.raw = some response → response.has "error" = true → row ∈ rankRows rows) := by
  have hfirst (hok : row.status = .ok) : ∃ sample response,
      row.iterations.head? = some sample ∧ sample.raw = some response ∧
      row.summary = responseSummary b.responseLimit response ∧
      (isValidResponse response = true ∨ ∃ method edits, task = .edits method edits) := by
    obtain ⟨first, rest, diagnostics, memory, hsettled, hiterations, hsummary⟩ :=
      Outcome.toRow_ok hrow hok
    have hend := settleOutcome_ok hsettled
    rw [hiterations]
    rcases htask with ⟨method, rfl⟩ | ⟨method, edits, rfl⟩
    · obtain ⟨ready, s, hwork⟩ := onSession_ok hend
      obtain ⟨response, ms, rfl, husable⟩ :=
        requestRounds_madeOf (.nil _ _) hwork first List.mem_cons_self
      exact ⟨_, response, rfl, rfl, hsummary, .inl husable⟩
    · obtain ⟨ready, s, hwork⟩ := onSession_ok hend
      obtain ⟨response, ms, rfl, -⟩ :=
        editRounds_madeOf (.nil _ _) hwork first List.mem_cons_self
      exact ⟨_, response, rfl, rfl, hsummary, .inr ⟨method, edits, rfl⟩⟩
  constructor
  · intro hranked
    obtain ⟨-, hok, hmeaningful⟩ := mem_rankRows.1 hranked
    obtain ⟨sample, response, hhead, hraw, hsummary, husable⟩ := hfirst hok
    refine ⟨sample, response, hhead, hraw, hsummary, ?_⟩
    rw [hsummary] at hmeaningful
    rcases husable with husable | hedits
    · exact .inl husable
    · exact (usable_or_overrated hmeaningful).imp_right fun hoverrated => ⟨hedits, hoverrated⟩
  · intro hmem hok sample response hhead hraw herror
    obtain ⟨sample', response', hhead', hraw', hsummary, -⟩ := hfirst hok
    obtain rfl := Option.some.inj (hhead.symm.trans hhead')
    obtain rfl := Option.some.inj (hraw.symm.trans hraw')
    refine mem_rankRows.2 ⟨hmem, hok, ?_⟩
    rw [hsummary]
    exact isMeaningful_of_error herror b.responseLimit

section Refusal

def refusalServer : Server := { label := "s", cmd := "server" }

def refusalSettings : BenchSettings Rat where
  directory := ⟨"/", []⟩
  rootUri := "file:///"
  target := ⟨"/", ["a.sol"]⟩
  warmup := 0
  iterations := 1
  timeout := 1
  indexTimeout := 2

def refusalTask : Task :=
  .edits "textDocument/definition" [{ path := ⟨"/", ["b.sol"]⟩, line := 0, col := 0 }]

def refusalHost : Host Rat where
  clock := 0
  files := ⟨⟨"/", []⟩, [(["a.sol"], .file []), (["b.sol"], .file [])]⟩
  servers := [("server",
    [{  out := [⟨1, .message (notificationMessage publishDiagnostics
          (.obj [("diagnostics", .arr [.null])]))⟩]
        replies := [("textDocument/definition",
          [[⟨1, .respond "error" (.obj [("message", .str "Unhandled method")])⟩]])] }])]
  now := { date := ⟨2026, 2, 13⟩ }

def refusalRow : Except Fault (Row Rat) :=
  (settleOutcome (refusalTask.run refusalSettings (Params.forMethod [] 0 0) refusalServer
    refusalHost).1.outcome).toRow refusalServer.label refusalSettings.responseLimit

theorem exists_refusalRow : ∃ row sample response, refusalRow = .ok row ∧ row.status = .ok ∧
    row.iterations.head? = some sample ∧ sample.raw = some response ∧
    response.has "error" = true ∧ isMeaningful row.summary = true := by
  have hrow : (match refusalRow with
      | .ok row =>
        decide (row.status = .ok) && isMeaningful row.summary &&
          (row.iterations.head?.bind (·.raw)).any (·.has "error")
      | .error _ => false) = true := by
    decide +kernel
  split at hrow
  · next row heq =>
    simp only [Bool.and_eq_true, decide_eq_true_eq, Option.any_eq_true, Option.bind_eq_some_iff]
      at hrow
    obtain ⟨⟨hok, hmeaningful⟩, response, ⟨sample, hhead, hraw⟩, herror⟩ := hrow
    exact ⟨row, sample, response, heq, hok, hhead, hraw, herror, hmeaningful⟩
  · cases hrow

/-- The refusal is ranked, as an error that was kept behind an edit. -/
theorem Task.run_ranked_refusal : ∃ row sample response, refusalRow = .ok row ∧
    row ∈ rankRows [row] ∧ row.iterations.head? = some sample ∧ sample.raw = some response ∧
    Overrated refusalSettings.responseLimit response := by
  obtain ⟨row, sample, response, hrow, hok, hhead, hraw, herror, -⟩ := exists_refusalRow
  obtain ⟨-, hranked⟩ := refusalTask.run_ranked refusalSettings (Params.forMethod [] 0 0)
    refusalServer refusalHost row [row] (.inr ⟨_, _, rfl⟩) hrow
  have hmem : row ∈ rankRows [row] :=
    hranked (List.mem_singleton_self row) hok sample response hhead hraw herror
  exact ⟨row, sample, response, hrow, hmem, hhead, hraw, .error herror⟩

/-- Not every ranked row is of a server that answered. -/
theorem Task.ranked_unusable : ∃ row sample response, refusalRow = .ok row ∧
    row ∈ rankRows [row] ∧ row.iterations.head? = some sample ∧ sample.raw = some response ∧
    isValidResponse response = false := by
  obtain ⟨row, sample, response, hrow, hok, hhead, hraw, herror, hmeaningful⟩ := exists_refusalRow
  have hmem : row ∈ rankRows [row] :=
    mem_rankRows.2 ⟨List.mem_singleton_self row, hok, hmeaningful⟩
  have hunusable : isValidResponse response = false := by
    rw [isValidResponse, if_pos herror]
  exact ⟨row, sample, response, hrow, hmem, hhead, hraw, hunusable⟩

end Refusal

end Latency

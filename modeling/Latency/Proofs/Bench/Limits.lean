import Latency.Proofs.Bench.Edits
import Latency.Proofs.Order.Related
/-!
# The limit of summaries and the ranking

A limit that cuts the text of an answer without content makes it look like an answer with content.
Such texts have at most eleven characters, so longer limits and no limit at all agree on what says
something (`limits_keep_ranking`), and a sweep then ranks the same rows in the same order.
-/

namespace Latency

/-! ## Summaries under a limit -/

section Summaries

variable {x y limit : Nat} {response value : Json}

def Cuts (limit length : Nat) : Prop :=
  0 < limit ∧ limit < length

instance (limit length : Nat) : Decidable (Cuts limit length) :=
  inferInstanceAs (Decidable (_ ∧ _))

def payload? (response : Json) : Option Json :=
  if response.has "error" then none
  else
    match response.get? "result" with
    | some value => some value
    | none => response.get? "params"

theorem summary_of_payload? (h : payload? response = some value) (limit : Nat) :
    responseSummary limit response = shorten limit value := by
  unfold payload? at h
  split at h
  · cases h
  · next hok =>
    have herror := get?_eq_none_of_has (Bool.eq_false_iff.2 hok)
    split at h
    · next hresult =>
      obtain rfl := Option.some.inj h
      simp only [responseSummary, herror, hresult]
    · next hresult => simp only [responseSummary, herror, hresult, h]

/-- Errors, and responses without a value, are summed up without regard to the limit. -/
theorem summary_of_no_payload (h : payload? response = none) (x y : Nat) :
    responseSummary x response = responseSummary y response := by
  unfold payload? at h
  split at h
  · next hfail =>
    obtain ⟨error, herror⟩ := Option.isSome_iff_exists.1 hfail
    simp only [responseSummary, herror]
  · next hok =>
    have herror := get?_eq_none_of_has (Bool.eq_false_iff.2 hok)
    split at h
    · cases h
    · next hresult => simp only [responseSummary, herror, hresult, h]

/-- A text that was cut is none of those that say nothing, for it ends with a dot. -/
theorem isMeaningful_cut (text : List Char) :
    isMeaningful (.str (String.ofList (text ++ "...".toList))) = true := by
  have hlast {s : String} (h : String.ofList (text ++ "...".toList) = s) :
      s.toList.getLast? = some '.' := by
    rw [← h, String.toList_ofList, List.getLast?_append]
    rfl
  have hnone : String.ofList (text ++ "...".toList) ∉ emptySummaries := by
    intro hmem
    simp only [emptySummaries, List.mem_cons, List.not_mem_nil, or_false] at hmem
    rcases hmem with h | h | h
    · exact absurd (hlast h) (by decide)
    · exact absurd (hlast h) (by decide)
    · exact absurd (hlast h) (by decide)
  rw [isMeaningful, Bool.not_eq_true', ← Bool.not_eq_true, List.contains_iff_mem]
  exact hnone

theorem isMeaningful_shorten_iff : isMeaningful (shorten limit value) = true ↔
    isMeaningful value = true ∨ Cuts limit (Json.write .plain value).length := by
  constructor
  · intro h
    by_cases hvalue : isMeaningful value = true
    · exact .inl hvalue
    · exact .inr (length_lt_of_isMeaningful_shorten h (Bool.eq_false_iff.2 hvalue))
  · intro h
    by_cases hcuts : Cuts limit (Json.write .plain value).length
    · obtain ⟨hpos, hlong⟩ := hcuts
      simp only [shorten, if_neg (Nat.ne_of_gt hpos), if_pos hlong]
      exact isMeaningful_cut _
    · have hwhole : shorten limit value = value := by
        unfold shorten
        split
        · rfl
        · next hlimit =>
          have hshort : ¬ limit < (Json.write .plain value).length :=
            fun hlong => hcuts ⟨Nat.pos_of_ne_zero hlimit, hlong⟩
          simp only [if_neg hshort]
      rw [hwhole]
      exact h.resolve_right hcuts

def hollowLengths : List Nat := [2, 4, 6, 11]

theorem length_mem_hollowLengths (h : isMeaningful value = false) :
    (Json.write .plain value).length ∈ hollowLengths := by
  cases value with
  | null => decide
  | str s =>
    rw [isMeaningful, Bool.not_eq_false', List.contains_iff_mem] at h
    simp only [emptySummaries, List.mem_cons, List.not_mem_nil, or_false] at h
    rcases h with rfl | rfl | rfl
    · decide
    · decide
    · decide
  | arr items =>
    obtain rfl : items = [] := by simpa [isMeaningful] using h
    decide
  | bool _ => cases h
  | num _ => cases h
  | obj _ => cases h

theorem exists_hollow {n : Nat} (h : n ∈ hollowLengths) :
    ∃ value, isMeaningful value = false ∧ (Json.write .plain value).length = n := by
  simp only [hollowLengths, List.mem_cons, List.not_mem_nil, or_false] at h
  rcases h with rfl | rfl | rfl | rfl
  · exact ⟨.arr [], rfl, rfl⟩
  · exact ⟨.null, rfl, rfl⟩
  · exact ⟨.str "null", by decide, by decide⟩
  · exact ⟨.str "no result", by decide, by decide⟩

def Agree (x y : Nat) (response : Json) : Prop :=
  isMeaningful (responseSummary x response) = isMeaningful (responseSummary y response)

/-- Limits agree on a response unless its value says nothing and one of them cuts its text. -/
theorem agree_iff : Agree x y response ↔
    ∀ value, payload? response = some value → isMeaningful value = false →
      (Cuts x (Json.write .plain value).length ↔ Cuts y (Json.write .plain value).length) := by
  unfold Agree
  cases hpayload : payload? response with
  | none => simp [summary_of_no_payload hpayload x y]
  | some value =>
    rw [summary_of_payload? hpayload, summary_of_payload? hpayload, Bool.eq_iff_iff,
      isMeaningful_shorten_iff, isMeaningful_shorten_iff]
    constructor
    · rintro h _ ⟨⟩ hvalue
      simpa [hvalue] using h
    · intro h
      by_cases hvalue : isMeaningful value = true
      · simp [hvalue]
      · rw [h value rfl (Bool.eq_false_iff.2 hvalue)]

theorem forall_agree_iff : (∀ response, Agree x y response) ↔
    ∀ n ∈ hollowLengths, (Cuts x n ↔ Cuts y n) := by
  constructor
  · intro h n hn
    obtain ⟨value, hvalue, rfl⟩ := exists_hollow hn
    exact agree_iff.1 (h (.obj [("result", value)])) value rfl hvalue
  · intro h response
    exact agree_iff.2 fun value _ hvalue => h _ (length_mem_hollowLengths hvalue)

end Summaries

/-! ## Outcomes under two limits -/

section Outcomes

variable {τ : Type} {x y : Nat}

def BenchSettings.limited (b : BenchSettings τ) (limit : Nat) : BenchSettings τ :=
  { b with responseLimit := limit }

section Settings

variable (b : BenchSettings τ) (limit : Nat)

@[simp] theorem BenchSettings.timeout_limited : (b.limited limit).timeout = b.timeout := rfl

@[simp] theorem BenchSettings.label_limited : (b.limited limit).label = b.label := rfl

@[simp] theorem BenchSettings.responseLimit_limited : (b.limited limit).responseLimit = limit := rfl

end Settings

def Summed (x y : Nat) (summary summary' : Json) : Prop :=
  summary' = summary ∨
    ∃ message, summary = responseSummary x message ∧ summary' = responseSummary y message

theorem Summed.isMeaningful_eq (hagree : ∀ response, Agree x y response) {summary summary' : Json}
    (h : Summed x y summary summary') : isMeaningful summary' = isMeaningful summary := by
  obtain rfl | ⟨message, rfl, rfl⟩ := h
  · rfl
  · exact (hagree message).symm

structure Sample.Limited (x y : Nat) (s s' : Sample τ) : Prop where
  measured : s' = { s with response := s'.response }
  response : Summed x y s.response s'.response

theorem responseSample_limited (x y : Nat) (response : Json) (ms : τ) :
    Sample.Limited x y (responseSample x response ms) (responseSample y response ms) :=
  ⟨rfl, .inr ⟨response, rfl, rfl⟩⟩

inductive Outcome.Limited (x y : Nat) : Outcome τ → Outcome τ → Prop where
  | same (outcome : Outcome τ) : Limited x y outcome outcome
  | ok {samples samples' : List (Sample τ)} (diagnostics : Option (Diagnostics τ))
      (memory : Option Int) : List.Forall₂ (Sample.Limited x y) samples samples' →
        Limited x y (.ok samples diagnostics memory) (.ok samples' diagnostics memory)

/-- Work that leaves the same behind under two limits, with the same outcome but for summaries. -/
structure Limited {σ : Type} (x y : Nat) (r r' : Report τ × σ) : Prop where
  outcome : Outcome.Limited x y (settleOutcome r.1.outcome) (settleOutcome r'.1.outcome)
  state : r'.2 = r.2

theorem Limited.of_eq {σ : Type} {r r' : Report τ × σ} (h : r' = r) : Limited x y r r' := by
  subst h
  exact ⟨.same _, rfl⟩

theorem Limited.after {σ : Type} {r r' : Report τ × σ} (h : Limited x y r r')
    (lines lines' : List String) :
    Limited x y (r.1.after lines, r.2) (r'.1.after lines', r'.2) :=
  ⟨h.outcome, h.state⟩

variable [Clock τ] {server : Server} {b : BenchSettings τ}

theorem startRounds_limited (x : Nat) (samples : List (Sample τ)) (i n : Nat) (h : Host τ) :
    startRounds server (b.limited x) samples i n h = startRounds server b samples i n h := by
  induction n generalizing samples i h with
  | zero => rfl
  | succ n ih =>
    have honce : startOnce server (b.limited x) h = startOnce server b h := rfl
    rw [startRounds, startRounds, honce]
    cases startOnce server b h with
    | mk result next =>
      cases result with
      | error outcome => rfl
      | ok finish =>
        simp only [ih]
        rfl

theorem indexRounds_limited {samples samples' : List (Sample τ)}
    (hsamples : List.Forall₂ (Sample.Limited x y) samples samples')
    (last : Option (Diagnostics τ)) (memory : Option Int) (i n : Nat) (h : Host τ) :
    Limited x y (indexRounds server (b.limited x) samples last memory i n h)
      (indexRounds server (b.limited y) samples' last memory i n h) := by
  induction n generalizing samples samples' last memory i h with
  | zero => exact ⟨.ok last memory hsamples, rfl⟩
  | succ n ih =>
    have honce (limit : Nat) : indexOnce server (b.limited limit) h = indexOnce server b h := rfl
    rw [indexRounds, indexRounds, honce, honce]
    cases indexOnce server b h with
    | mk result next =>
      cases result with
      | error outcome => exact .of_eq rfl
      | ok r =>
        have hsample : Sample.Limited x y (r.sample x) (r.sample y) :=
          ⟨rfl, .inr ⟨r.diagnostics.message, rfl, rfl⟩⟩
        have hmore := List.rel_append hsamples (.cons hsample .nil)
        by_cases hwarm : i < b.warmup
        · have hearly (limit : Nat) : i < (b.limited limit).warmup := hwarm
          simp only [if_pos (hearly _)]
          exact (ih hsamples last _ (i + 1) next).after _ _
        · have hlate (limit : Nat) : ¬ i < (b.limited limit).warmup := hwarm
          simp only [if_neg (hlate _), BenchSettings.responseLimit_limited]
          exact (ih hmore _ _ (i + 1) next).after _ _

theorem requestRounds_limited {method : String} {params : Json} {ready : Session.Ready τ}
    {samples samples' : List (Sample τ)}
    (hsamples : List.Forall₂ (Sample.Limited x y) samples samples') (i n : Nat) (s : Session τ) :
    Limited x y (requestRounds (b.limited x) method params ready samples i n s)
      (requestRounds (b.limited y) method params ready samples' i n s) := by
  induction n generalizing samples samples' i s with
  | zero => exact ⟨.ok _ _ hsamples, rfl⟩
  | succ n ih =>
    simp only [requestRounds, BenchSettings.timeout_limited, BenchSettings.responseLimit_limited,
      BenchSettings.label_limited]
    cases timedRequest method params b.timeout s with
    | mk result next =>
      cases result with
      | error e => exact .of_eq rfl
      | ok answer =>
        obtain ⟨response, ms⟩ := answer
        have hsample := responseSample_limited x y response ms
        have hmore := List.rel_append hsamples (.cons hsample .nil)
        by_cases hwarm : i < b.warmup
        · have hearly (limit : Nat) : i < (b.limited limit).warmup := hwarm
          simp only [if_pos (hearly _)]
          exact (ih hsamples (i + 1) next).after _ _
        · have hlate (limit : Nat) : ¬ i < (b.limited limit).warmup := hwarm
          simp only [if_neg (hlate _)]
          by_cases husable : isValidResponse response = true
          · simp only [if_pos husable]
            exact (ih hmore (i + 1) next).after _ _
          · simp only [if_neg husable]
            exact .of_eq rfl

theorem editRounds_limited {files : Files} {method : String} {total : Nat}
    {ready : Session.Ready τ} {samples samples' : List (Sample τ)}
    (hsamples : List.Forall₂ (Sample.Limited x y) samples samples') (i : Nat)
    (edits : List ResolvedEdit) (s : Session τ) :
    Limited x y (editRounds files (b.limited x) method total ready samples i edits s)
      (editRounds files (b.limited y) method total ready samples' i edits s) := by
  induction edits generalizing samples samples' i s with
  | nil => exact ⟨.ok _ _ hsamples, rfl⟩
  | cons edit rest ih =>
    simp only [editRounds, BenchSettings.timeout_limited, BenchSettings.responseLimit_limited]
    cases files.readText edit.path with
    | error cause => exact .of_eq rfl
    | ok text =>
      simp only
      cases s.changeFile ready.uri (.int (i + 2)) text with
      | mk result changed =>
        cases result with
        | error e => exact .of_eq rfl
        | ok written =>
          simp only
          cases timedRequest method (Params.build method ready.uri edit.line edit.col none)
              b.timeout changed with
          | mk result next =>
            cases result with
            | error e => exact .of_eq rfl
            | ok answer =>
              obtain ⟨response, ms⟩ := answer
              have hsample := responseSample_limited x y response ms
              have hmore := List.rel_append hsamples (.cons hsample .nil)
              exact (ih hmore (i + 1) next).after _ _

theorem onSession_limited {work work' : Session.Ready τ → Session τ → Report τ × Session τ}
    (hwork : ∀ ready s, Limited x y (work ready s) (work' ready s)) (h : Host τ) :
    Limited x y (onSession server (b.limited x) work h)
      (onSession server (b.limited y) work' h) := by
  have hprepared (s : Session τ) :
      Limited x y (s.prepareAndWork h.files (b.limited x) work)
        (s.prepareAndWork h.files (b.limited y) work') := by
    have hprepare (limit : Nat) : s.prepare h.files (b.limited limit) = s.prepare h.files b := rfl
    rw [Session.prepareAndWork, Session.prepareAndWork, hprepare, hprepare]
    obtain ⟨lines, result, next⟩ := s.prepare h.files b
    cases result with
    | error outcome => exact .of_eq rfl
    | ok ready => exact (hwork ready next).after lines lines
  rw [onSession, onSession, Host.withSession, Host.withSession]
  have hdirectory (limit : Nat) : (b.limited limit).directory = b.directory := rfl
  rw [hdirectory, hdirectory]
  cases h.start server b.directory with
  | mk result next =>
    cases result with
    | error failure => exact .of_eq rfl
    | ok p =>
      have hsession := hprepared (Session.attach server.label b.tracing 1024 next.clock p)
      have hclosed := congrArg
        (fun s : Session τ => next.conclude b.directory s.close) hsession.state
      dsimp only
      exact ⟨hsession.outcome, hclosed⟩

/-- Whatever a benchmark does, the limit shows in its summaries only. -/
theorem Task.run_limited (task : Task) (b : BenchSettings τ) (params : String → String → Json)
    (server : Server) (h : Host τ) :
    Limited x y (task.run (b.limited x) params server h)
      (task.run (b.limited y) params server h) := by
  cases task with
  | startup =>
    have hstart (limit : Nat) : startRounds server (b.limited limit) [] 0 b.total h =
        startRounds server b [] 0 b.total h :=
      startRounds_limited limit [] 0 b.total h
    exact .of_eq ((hstart y).trans (hstart x).symm)
  | diagnostics => exact indexRounds_limited .nil none none 0 b.total h
  | requests method =>
    exact onSession_limited (fun ready s => requestRounds_limited .nil 0 b.total s) h
  | edits method list => exact onSession_limited (fun ready s => editRounds_limited .nil 0 list s) h

end Outcomes

/-! ## Rows under two limits -/

section Rows

variable {τ : Type} [Measure τ] {x y : Nat}

structure Row.Limited (x y : Nat) (row row' : Row τ) : Prop where
  measured : row' = { row with iterations := row'.iterations, summary := row'.summary }
  iterations : List.Forall₂ (Sample.Limited x y) row.iterations row'.iterations
  summary : Summed x y row.summary row'.summary

omit [Measure τ] in
theorem map_ms_of_limited {samples samples' : List (Sample τ)}
    (h : List.Forall₂ (Sample.Limited x y) samples samples') :
    samples'.map (·.ms) = samples.map (·.ms) := by
  induction h with
  | nil => rfl
  | cons hfirst _ ih =>
    rw [List.map_cons, List.map_cons, ih, hfirst.measured]

omit [Measure τ] in
theorem summed_head_of_limited {samples samples' : List (Sample τ)}
    (h : List.Forall₂ (Sample.Limited x y) samples samples') :
    Summed x y ((samples.head?.map (·.response)).getD .null)
      ((samples'.head?.map (·.response)).getD .null) := by
  cases h with
  | nil => exact .inl rfl
  | cons hfirst _ => exact hfirst.response

omit [Measure τ] in
theorem Sample.Limited.refl (s : Sample τ) : Sample.Limited x y s s :=
  ⟨rfl, .inl rfl⟩

theorem summary?_limited {response summary : Json} (h : summary? x response = some summary) :
    ∃ summary', summary? y response = some summary' ∧ Summed x y summary summary' := by
  unfold summary? at h ⊢
  by_cases hobject : response.isObject = true
  · simp only [if_pos hobject, Option.some.injEq] at h ⊢
    exact ⟨_, rfl, .inr ⟨response, h.symm, rfl⟩⟩
  · simp only [if_neg hobject] at h ⊢
    exact ⟨summary, h, .inl rfl⟩

omit [Measure τ] in
theorem orNoResponse_summary?_limited {response summary : Json}
    (h : orNoResponse (summary? x response) = .ok summary) :
    ∃ summary', orNoResponse (summary? y response) = .ok summary' ∧
      Summed x y summary summary' := by
  cases hsummary : summary? x response with
  | none =>
    rw [hsummary] at h
    cases h
  | some made =>
    rw [hsummary] at h
    obtain rfl := Except.ok.inj h
    obtain ⟨summary', hsummary', hsummed⟩ := summary?_limited (y := y) hsummary
    exact ⟨summary', by rw [hsummary']; rfl, hsummed⟩

theorem Outcome.Limited.toRow {outcome outcome' : Outcome τ}
    (h : Outcome.Limited x y outcome outcome') {label : String} {row : Row τ}
    (hrow : outcome.toRow label x = .ok row) :
    ∃ row', outcome'.toRow label y = .ok row' ∧ Row.Limited x y row row' := by
  cases h with
  | ok diagnostics memory hsamples =>
    obtain ⟨stats, hstats, hrow⟩ := bind_ok hrow
    obtain rfl := Except.ok.inj hrow
    rw [← map_ms_of_limited hsamples] at hstats
    rw [Outcome.toRow, hstats]
    exact ⟨_, rfl, rfl, hsamples, summed_head_of_limited hsamples⟩
  | same =>
    have hself (samples : List (Sample τ)) :
        List.Forall₂ (Sample.Limited x y) samples samples :=
      List.forall₂_same.2 fun s _ => .refl s
    cases outcome with
    | ok samples diagnostics memory =>
      obtain ⟨stats, hstats, hrow⟩ := bind_ok hrow
      obtain rfl := Except.ok.inj hrow
      rw [Outcome.toRow, hstats]
      exact ⟨_, rfl, rfl, hself _, .inl rfl⟩
    | invalid response diagnostics memory =>
      obtain ⟨summary, hsummary, hrow⟩ := bind_ok hrow
      obtain rfl := Except.ok.inj hrow
      obtain ⟨summary', hsummary', hsummed⟩ := orNoResponse_summary?_limited (y := y) hsummary
      rw [Outcome.toRow, hsummary']
      exact ⟨_, rfl, rfl, .nil, hsummed⟩
    | failed error logs memory =>
      obtain rfl := Except.ok.inj hrow
      exact ⟨_, rfl, rfl, .nil, .inl rfl⟩

theorem verdictLines_limited {row row' : Row τ} (h : Row.Limited x y row row') :
    verdictLines row' = verdictLines row := by
  rw [h.measured]
  rfl

variable {task : Task} {b : BenchSettings τ} {params : String → String → Json} {server : Server}
  {h : Host τ}

theorem Task.row_limited {row : Row τ} (hrow : task.row (b.limited x) params server h = .ok row) :
    ∃ row', task.row (b.limited y) params server h = .ok row' ∧ Row.Limited x y row row' := by
  have hmade := Task.toRow_of_row hrow
  obtain ⟨row', hmade', hlimited⟩ := (task.run_limited b params server h).outcome.toRow hmade
  refine ⟨row', ?_, hlimited⟩
  rw [Task.row, hmade] at hrow
  rw [Task.row, BenchSettings.responseLimit_limited, hmade']
  simp only [verdictLines_limited hlimited] at hrow ⊢
  split at hrow
  · cases hrow
  · rfl

/-- A sweep makes the same of each server under two limits, but for summaries. -/
theorem sweepTask_limited {verbose : Bool} {servers : List Server} {rows : List (Row τ)}
    (hrows : (sweepTask task (b.limited x) params verbose servers h).1.rows = .ok rows) :
    ∃ rows', (sweepTask task (b.limited y) params verbose servers h).1.rows = .ok rows' ∧
      List.Forall₂ (Row.Limited x y) rows rows' := by
  induction servers generalizing h rows with
  | nil =>
    obtain rfl := Except.ok.inj hrows
    exact ⟨[], rfl, .nil⟩
  | cons server rest ih =>
    rw [rows_sweepTask_cons] at hrows ⊢
    split at hrows
    · cases hrows
    · next hrow =>
      obtain ⟨others, hothers, rfl⟩ := map_ok hrows
      obtain ⟨row', hrow', hlimited⟩ := Task.row_limited (y := y) hrow
      obtain ⟨others', hothers', hrest⟩ := ih hothers
      have hstate := (task.run_limited (x := x) (y := y) b params server h).state
      rw [hrow', hstate, hothers']
      exact ⟨row' :: others', rfl, .cons hlimited hrest⟩

omit [Measure τ] in
theorem Row.Limited.isRanked_eq (hagree : ∀ response, Agree x y response) {row row' : Row τ}
    (h : Row.Limited x y row row') : row'.isRanked = row.isRanked := by
  have hstatus : row'.status = row.status := by rw [h.measured]
  rw [isRanked, isRanked, hstatus, h.summary.isMeaningful_eq hagree]

theorem rankRows_limited (hagree : ∀ response, Agree x y response) {rows rows' : List (Row τ)}
    (h : List.Forall₂ (Row.Limited x y) rows rows') :
    List.Forall₂ (Row.Limited x y) (rankRows rows) (rankRows rows') := by
  have hkept : List.Forall₂ (Row.Limited x y) (rows.filter Row.isRanked)
      (rows'.filter Row.isRanked) := by
    refine List.rel_filter ?_ h
    intro row row' hlimited
    exact Bool.eq_iff_iff.1 (hlimited.isRanked_eq hagree).symm
  refine Order.forall₂_sort ?_ hkept
  intro first second first' second' hfirst hsecond
  rw [Row.faster, Row.faster, hfirst.measured, hsecond.measured]

/-- **What the limit may decide.**  Two limits agree on whether a response says something unless its
value says nothing and one of them cuts the text of that value; so they agree on all responses
exactly if they cut the same of the texts of two, four, six and eleven characters.  Then a sweep
makes the same rows under both, but for their summaries, and ranks the same of them in the same
order. -/
theorem limits_keep_ranking (x y : Nat) :
    (∀ response : Json, isMeaningful (responseSummary x response) =
        isMeaningful (responseSummary y response) ↔
      ∀ value, payload? response = some value → isMeaningful value = false →
        (Cuts x (Json.write .plain value).length ↔ Cuts y (Json.write .plain value).length)) ∧
    ((∀ response : Json, isMeaningful (responseSummary x response) =
        isMeaningful (responseSummary y response)) ↔
      ∀ n ∈ hollowLengths, (Cuts x n ↔ Cuts y n)) ∧
    ((∀ n ∈ hollowLengths, (Cuts x n ↔ Cuts y n)) →
      ∀ (task : Task) (b : BenchSettings τ) (params : String → String → Json) (verbose : Bool)
        (servers : List Server) (h : Host τ) (rows : List (Row τ)),
        (sweepTask task (b.limited x) params verbose servers h).1.rows = .ok rows →
        ∃ rows', (sweepTask task (b.limited y) params verbose servers h).1.rows = .ok rows' ∧
          List.Forall₂ (Row.Limited x y) rows rows' ∧
          List.Forall₂ (Row.Limited x y) (rankRows rows) (rankRows rows')) := by
  refine ⟨fun response => agree_iff, forall_agree_iff, ?_⟩
  intro hcuts task b params verbose servers h rows hrows
  obtain ⟨rows', hrows', hlimited⟩ := sweepTask_limited (y := y) hrows
  exact ⟨rows', hrows', hlimited, rankRows_limited (forall_agree_iff.2 hcuts) hlimited⟩

end Rows

section Hover

def hoverRows (task : Task) (limit : Nat) : Except Fault (List (Row Rat)) :=
  (sweepTask task (hoverSettings.limited limit) (Params.forMethod [] 0 0) false [hoverServer]
    hoverHost).1.rows

/-- The usual limit ranks the answer that no limit ranks. -/
theorem limits_keep_ranking_hover : ∃ rows rows', hoverRows (.requests "textDocument/hover") 0 =
      .ok rows ∧ hoverRows (.requests "textDocument/hover") 80 = .ok rows' ∧
    rankRows rows ≠ [] ∧ List.Forall₂ (Row.Limited 0 80) (rankRows rows) (rankRows rows') := by
  have hchecked : ((hoverRows (.requests "textDocument/hover") 0).toOption.any fun rows =>
      !(rankRows rows).isEmpty) = true := by
    decide +kernel
  obtain ⟨rows, hrows, hranked⟩ := any_toOption.1 hchecked
  rw [Bool.not_eq_true', List.isEmpty_eq_false_iff] at hranked
  have hcuts : ∀ n ∈ hollowLengths, (Cuts 0 n ↔ Cuts 80 n) := by decide
  obtain ⟨rows', hrows', -, hlimited⟩ := (limits_keep_ranking 0 80).2.2 hcuts
    (.requests "textDocument/hover") hoverSettings (Params.forMethod [] 0 0) false [hoverServer]
    hoverHost rows hrows
  exact ⟨rows, rows', hrows, hrows', hranked, hlimited⟩

/-- A limit of three makes an answer of the null that is none without a limit, and ranks the server
that gave it behind an edit. -/
theorem limits_decide_ranking :
    isMeaningful (responseSummary 3 (.obj [("result", .null)])) ≠
      isMeaningful (responseSummary 0 (.obj [("result", .null)])) ∧
    ∃ rows rows', hoverRows (.edits "textDocument/hover" hoverEdits) 3 = .ok rows ∧
      hoverRows (.edits "textDocument/hover" hoverEdits) 0 = .ok rows' ∧
      rankRows rows ≠ [] ∧ rankRows rows' = [] := by
  have hshort : ((hoverRows (.edits "textDocument/hover" hoverEdits) 3).toOption.any fun rows =>
      !(rankRows rows).isEmpty) = true := by
    decide +kernel
  have hwhole : ((hoverRows (.edits "textDocument/hover" hoverEdits) 0).toOption.any fun rows =>
      (rankRows rows).isEmpty) = true := by
    decide +kernel
  obtain ⟨rows, hrows, hranked⟩ := any_toOption.1 hshort
  obtain ⟨rows', hrows', hunranked⟩ := any_toOption.1 hwhole
  rw [Bool.not_eq_true', List.isEmpty_eq_false_iff] at hranked
  have hdiffers : isMeaningful (responseSummary 3 (.obj [("result", .null)])) ≠
      isMeaningful (responseSummary 0 (.obj [("result", .null)])) := by
    decide +kernel
  exact ⟨hdiffers, rows, rows', hrows, hrows', hranked, List.isEmpty_iff.1 hunranked⟩

end Hover

end Latency

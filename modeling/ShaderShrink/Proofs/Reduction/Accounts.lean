import ShaderShrink.Proofs.Change.Stale
import ShaderShrink.Proofs.Reduction.Budget

/-!
# The accounts of a reduction

A reduction counts its questions and its rejections, writes down an event for everything that it
does, and keeps a record for every change. `Reducer.AddsUp` says how these fit together and what
they say of the calls of the oracle, and `Reducer.reduce_addsUp` that they do in every report.

The records name the numbers of live nodes, which are counted in an arena that has literals left
behind before a change and a replaced part left behind after it, while the next count is made in an
arena that was built anew. The three agree because each of them is the size of a program
(`WellFormed.liveCount_of_toProgram`). The invariant is `Reducer.InStep`: the accounts up to a point
and the calls up to that point.
-/

namespace ShaderShrink

open Arena

variable {σ : Type}

/-! ## Live nodes -/

/-- An arena has as many live nodes as the program that is read from it. -/
theorem Arena.WellFormed.liveCount_of_toProgram {a : Arena} {p : Program} (h : a.WellFormed)
    (hp : a.toProgram = .ok p) : a.liveCount = p.size := by
  obtain ⟨q, hq, hat⟩ := h.exists_toProgram
  rw [hp] at hq
  cases hq
  exact h.liveCount_eq hat

/-- Literals left behind are not live. -/
theorem Arena.Padded.liveCount_eq {a : Arena} {p : Program} (h : (ofProgram p).Padded a) :
    a.liveCount = p.size :=
  (h.wellFormed (wellFormed_ofProgram p)).liveCount_of_toProgram h.toProgram_eq

/-- Behind a change that leads to the program `q` there are as many live nodes as `q` has. -/
theorem FinderConfig.liveCount_apply {config : FinderConfig} {p q : Program} {o : Opportunity}
    {a : Arena} (ho : o ∈ config.find (ofProgram p)) (hq : p.change? o.change = some q)
    (ha : (ofProgram p).Padded a) : (o.change.apply a).2.liveCount = q.size := by
  have hp := wellFormed_ofProgram p
  have hs := (found_of_mem_find hp ho).1
  have hw := (Change.wellFormed_try (ha.wellFormed hp) (hs.mono ha.evolves)).1
  obtain ⟨q', hq', -, hlead⟩ := leads_of_mem_find ho
  obtain ⟨edit, after, back, lead⟩ := hlead a ha
  rw [hq] at hq'
  cases hq'
  rw [lead.apply_eq] at hw ⊢
  exact hw.liveCount_of_toProgram lead.toProgram_eq

/-! ## Events -/

namespace ReductionConfig

/-- The event for the question about the unchanged program. -/
def firstEvent (c : ReductionConfig) (call : Call) : Event :=
  if call.verdict = .interesting then
    .pass c.traceId c.jobName Reducer.component "initial_check"
  else .fail c.traceId c.jobName Reducer.component "initial_check" call.verdict.name

/-- The event for the question about a candidate. -/
def candidateEvent (c : ReductionConfig) (call : Call) : Event :=
  if call.verdict = .interesting then
    .pass c.traceId c.jobName Reducer.component "candidate_committed"
  else .fail c.traceId c.jobName Reducer.component "candidate_rejected" call.verdict.name

/-- The event for the end of a reduction. -/
def lastEvent (c : ReductionConfig) (reason : Termination) : Event :=
  if reason.isBestEffort then .skip c.traceId c.jobName Reducer.component reason.name
  else .pass c.traceId c.jobName Reducer.component reason.name

end ReductionConfig

/-! ## Calls -/

/-- The numbers of the calls that were answered "interesting", where the first call of the list has
the number `start`. -/
def acceptedCalls (start : Nat) (calls : List Call) : List Nat :=
  ((calls.zipIdx start).filter fun c => c.1.verdict = .interesting).map Prod.snd

/-- The last call has the last number if it was answered "interesting". -/
theorem acceptedCalls_append (start : Nat) (calls : List Call) (call : Call) :
    acceptedCalls start (calls ++ [call]) = acceptedCalls start calls ++
      if call.verdict = .interesting then [start + calls.length] else [] := by
  rw [acceptedCalls, List.zipIdx_append, List.filter_append, List.map_append, ← acceptedCalls]
  by_cases h : call.verdict = .interesting <;> simp [h]

/-- The calls are numbered one after another. -/
theorem acceptedCalls_increasing (start : Nat) (calls : List Call) :
    (acceptedCalls start calls).Pairwise (· < ·) := by
  have hall : ((calls.zipIdx start).map Prod.snd).Pairwise (· < ·) := by
    rw [List.zipIdx_map_snd]
    exact List.pairwise_lt_range'
  exact hall.sublist (List.filter_sublist.map _)

namespace Reducer

/-- The calls about the unchanged program: one, if it is to be made and a call is allowed. -/
def firstCalls (r : Reducer σ) (p : Program) (s : σ) : List Call :=
  if r.config.checkInitial = true ∧ r.config.budget.maxOracleCalls ≠ some 0 then
    [⟨r.text p, r.verdict p s⟩]
  else []

/-! ## Accounts -/

/-- A reduction has come to the program `q` after the given calls, and its counts, events and
records say so. -/
structure InStep (r : Reducer σ) (first candidates : List Call) (nodes : Nat) (q : Program)
    (run : Run (σ × List Call)) : Prop where
  padded : (ofProgram q).Padded run.arena
  calls : run.oracle.2 = first ++ candidates
  counted : run.stats.oracleCalls = run.oracle.2.length
  rejections : run.stats.oracleCalls =
    first.length + run.commits.length + run.stats.rejections
  events : run.events =
    first.map r.config.firstEvent ++ candidates.map r.config.candidateEvent
  sequence : run.commits.map CommitRecord.sequence = List.range' 1 run.commits.length
  accepted : run.commits.map CommitRecord.oracleCall = acceptedCalls (first.length + 1) candidates
  shrinking : ∀ c ∈ run.commits, c.nodesAfter < c.nodesBefore
  initialNodes : run.stats.initialNodes = nodes
  nodes : nodes :: run.commits.map CommitRecord.nodesAfter =
    run.commits.map CommitRecord.nodesBefore ++ [q.size]

/-- The report of a reduction that made the given calls adds up. -/
structure AddsUp (config : ReductionConfig) (first candidates : List Call)
    (report : ReductionReport) : Prop where
  /-- The questions are counted. -/
  calls : report.stats.oracleCalls = (first ++ candidates).length
  /-- Every question but the first one is one about a change that was kept or rejected. -/
  rejections : report.stats.oracleCalls =
    first.length + report.commits.length + report.stats.rejections
  /-- There is an event for every question and one for the end. -/
  events : report.events = first.map config.firstEvent ++
    candidates.map config.candidateEvent ++ [config.lastEvent report.termination]
  events_length : report.events.length = report.stats.oracleCalls + 1
  /-- Records are numbered from one. -/
  sequence : report.commits.map CommitRecord.sequence = List.range' 1 report.commits.length
  /-- Records name the questions about candidates that were answered "interesting", each one once
  and in their order. -/
  accepted : report.commits.map CommitRecord.oracleCall =
    acceptedCalls (first.length + 1) candidates
  increasing : (report.commits.map CommitRecord.oracleCall).Pairwise (· < ·)
  shrinking : ∀ c ∈ report.commits, c.nodesAfter < c.nodesBefore
  /-- The numbers of nodes from the start on and after each change are those before each change and
  at the end. -/
  nodes : report.stats.initialNodes :: report.commits.map CommitRecord.nodesAfter =
    report.commits.map CommitRecord.nodesBefore ++ [report.stats.finalNodes]

section
variable {r : Reducer σ} {p q : Program} {s : σ} {first candidates : List Call} {nodes : Nat}
  {run : Run (σ × List Call)}

/-- Each rejection is counted once. -/
theorem rejections_countRejection (verdict : Verdict) (stats : ReductionStats) :
    (countRejection verdict stats).rejections = stats.rejections + 1 := by
  cases verdict <;> simp only [countRejection, ReductionStats.rejections] <;> omega

/-- A change that was turned down does not change what the reduction started with. -/
theorem initialNodes_turnedDown (back : Arena) :
    (r.logged.turnedDown run q back).stats.initialNodes = run.stats.initialNodes := by
  unfold turnedDown
  cases r.logged.verdict q run.oracle <;> rfl

/-- A question is written down with its answer. -/
theorem oracle_questioned (run : Run (σ × List Call)) (q : Program) :
    (r.logged.questioned run q).oracle.2 =
      run.oracle.2 ++ [⟨r.text q, r.logged.verdict q run.oracle⟩] := rfl

/-- A change that is kept adds a call, an event and a record. -/
theorem InStep.kept {o : Opportunity} (h : r.InStep first candidates nodes p run)
    (ho : o ∈ r.finder.find (ofProgram p)) (hq : p.change? o.change = some q)
    (hv : r.logged.verdict q run.oracle = .interesting) :
    r.InStep first (candidates ++ [⟨r.text q, .interesting⟩]) nodes q
      (r.logged.kept run q (record o run)) := by
  have hcalls : (r.logged.questioned run q).oracle.2 =
      first ++ (candidates ++ [⟨r.text q, .interesting⟩]) := by
    rw [oracle_questioned, h.calls, hv, List.append_assoc]
  have hbefore : run.arena.liveCount = p.size := h.padded.liveCount_eq
  have hafter : (o.change.apply run.arena).2.liveCount = q.size :=
    FinderConfig.liveCount_apply ho hq h.padded
  have hcounted := h.counted
  rw [h.calls, List.length_append] at hcounted
  have hcommits : (r.logged.kept run q (record o run)).commits = run.commits ++ [record o run] :=
    rfl
  constructor
  case padded => exact .refl
  case calls => exact hcalls
  case counted =>
    change run.stats.oracleCalls + 1 = (r.logged.questioned run q).oracle.2.length
    rw [hcalls, hcounted]
    simp only [List.length_append, List.length_singleton]
    omega
  case rejections =>
    have := h.rejections
    change run.stats.oracleCalls + 1 =
      first.length + (run.commits ++ [record o run]).length + run.stats.rejections
    rw [List.length_append, List.length_singleton]
    omega
  case events =>
    change run.events ++ [_] = _
    rw [h.events, List.map_append, List.append_assoc]
    rfl
  case sequence =>
    rw [hcommits, List.map_append, h.sequence, List.length_append, List.length_singleton,
      List.range'_concat]
    simp [record]
    omega
  case accepted =>
    rw [hcommits, List.map_append, h.accepted, acceptedCalls_append, if_pos rfl]
    simp only [List.map_cons, List.map_nil, record]
    congr 2
    omega
  case shrinking =>
    intro c hc
    rcases List.mem_append.1 hc with hc | hc
    · exact h.shrinking c hc
    · obtain ⟨q', hq', hlt, -⟩ := FinderConfig.leads_of_mem_find ho
      rw [hq] at hq'
      cases hq'
      rw [List.mem_singleton.1 hc]
      simpa only [record, hbefore, hafter] using hlt
  case initialNodes => exact h.initialNodes
  case nodes =>
    rw [hcommits, List.map_append, List.map_append, ← List.cons_append, h.nodes]
    simp [record, hbefore, hafter]

/-- A change that is undone adds a call and an event, and a rejection to the counts. -/
theorem InStep.rejected {back : Arena} (h : r.InStep first candidates nodes p run)
    (hv : r.logged.verdict q run.oracle ≠ .interesting) (hb : (ofProgram p).Padded back) :
    r.InStep first (candidates ++ [⟨r.text q, r.logged.verdict q run.oracle⟩]) nodes p
      (r.logged.turnedDown run q back) := by
  have hcalls : (r.logged.questioned run q).oracle.2 =
      first ++ (candidates ++ [⟨r.text q, r.logged.verdict q run.oracle⟩]) := by
    rw [oracle_questioned, h.calls, List.append_assoc]
  constructor
  case padded => exact hb
  case calls => exact hcalls
  case counted =>
    change _ = (r.logged.questioned run q).oracle.2.length
    rw [calls_turnedDown, h.counted, oracle_questioned, List.length_append]
    rfl
  case rejections =>
    have := h.rejections
    change _ = first.length + run.commits.length + (countRejection _ _).rejections
    rw [calls_turnedDown, rejections_countRejection]
    change _ = first.length + run.commits.length + (run.stats.rejections + 1)
    omega
  case events =>
    change run.events ++ [_] = _
    rw [h.events, List.map_append, List.append_assoc, List.map_singleton,
      ReductionConfig.candidateEvent, if_neg hv]
    rfl
  case sequence => exact h.sequence
  case accepted =>
    rw [acceptedCalls_append, if_neg hv, List.append_nil]
    exact h.accepted
  case shrinking => exact h.shrinking
  case initialNodes => rw [initialNodes_turnedDown, h.initialNodes]
  case nodes => exact h.nodes

/-- The rounds of a reduction keep its accounts in step. -/
theorem upholds_inStep (r : Reducer σ) (first : List Call) (nodes : Nat) :
    r.logged.Upholds fun q run => ∃ candidates, r.InStep first candidates nodes q run where
  ticked := fun ⟨candidates, h⟩ => ⟨candidates, { h with }⟩
  scanned := fun ⟨candidates, h⟩ => ⟨candidates, { h with }⟩
  kept ho hq _ hv := fun ⟨_, h⟩ => ⟨_, h.kept ho hq hv⟩
  rejected _ _ _ hv hb := fun ⟨_, h⟩ => ⟨_, h.rejected hv hb⟩

/-- The accounts are in step as long as nothing was asked but the first question. -/
theorem inStep_of_first (ha : run.arena = ofProgram p) (hcalls : run.oracle.2 = first)
    (hcommits : run.commits = [])
    (hstats : run.stats =
      { ReductionStats.start (ofProgram p).liveCount p.digest with oracleCalls := first.length })
    (hevents : run.events = first.map r.config.firstEvent) :
    r.InStep first [] p.size p run where
  padded := ha ▸ .refl
  calls := by rw [hcalls, List.append_nil]
  counted := by rw [hstats, hcalls]
  rejections := by rw [hstats, hcommits]; rfl
  events := by rw [hevents, List.map_nil, List.append_nil]
  sequence := by rw [hcommits]; rfl
  accepted := by rw [hcommits]; rfl
  shrinking := by rw [hcommits]; exact fun _ h => absurd h List.not_mem_nil
  initialNodes := by rw [hstats]; exact liveCount_ofProgram p
  nodes := by rw [hcommits]; rfl

/-- At the start no question is left only if none is allowed. -/
theorem questionsSpent_initial : r.questionsSpent (initial p s) = true ↔
    r.config.budget.maxOracleCalls = some 0 := by
  rw [questionsSpent]
  cases r.config.budget.maxOracleCalls with
  | none => simp
  | some limit =>
    have hstart : (initial p s).stats.oracleCalls = 0 := rfl
    rw [Option.any_some, hstart, decide_eq_true_iff, Nat.le_zero, Option.some_inj,
      ← UInt64.toNat_inj]
    rfl

/-- The accounts are in step behind the question about the unchanged program. -/
theorem inStep_check (r : Reducer σ) (p : Program) (s : σ) :
    r.InStep (r.firstCalls p s) [] p.size p (r.logged.check (initial p (s, []))).2 := by
  have hlogged : r.logged.config.checkInitial = r.config.checkInitial := rfl
  rw [check, firstCalls, hlogged]
  cases hcheck : r.config.checkInitial with
  | false =>
    rw [if_neg Bool.false_ne_true, if_neg fun hask => Bool.false_ne_true hask.1]
    exact inStep_of_first rfl rfl rfl rfl rfl
  | true =>
    have hread : (initial p (s, ([] : List Call))).arena.toProgram = .ok p := toProgram_ofProgram p
    obtain ⟨halt, run, he, h⟩ := askFirst_cases (r := r.logged) hread
    have hspent : r.logged.questionsSpent (initial p (s, [])) = true ↔
        r.config.budget.maxOracleCalls = some 0 := questionsSpent_initial
    rw [if_pos rfl, he]
    cases h with
    | spent hs =>
      rw [if_neg fun hask => hask.2 (hspent.1 hs)]
      exact inStep_of_first rfl rfl rfl rfl rfl
    | passed hs hv =>
      rw [if_pos ⟨rfl, fun hzero => Bool.false_ne_true (hs.symm.trans (hspent.2 hzero))⟩]
      refine inStep_of_first rfl rfl rfl rfl ?_
      rw [List.map_singleton, ReductionConfig.firstEvent, if_pos (by exact hv)]
      rfl
    | failed hs hv =>
      rw [if_pos ⟨rfl, fun hzero => Bool.false_ne_true (hs.symm.trans (hspent.2 hzero))⟩]
      refine inStep_of_first rfl rfl rfl rfl ?_
      rw [List.map_singleton, ReductionConfig.firstEvent, if_neg (by exact hv)]
      rfl

/-- What a report says. -/
theorem report_of_finish {reason : Termination} {outcome : ReductionOutcome}
    (hq : (ofProgram q).Padded run.arena) (h : r.logged.finish reason run = .ok outcome) :
    outcome.report.commits = run.commits ∧
      outcome.report.events = run.events ++ [r.config.lastEvent reason] ∧
      outcome.report.stats.oracleCalls = run.stats.oracleCalls ∧
      outcome.report.stats.rejections = run.stats.rejections ∧
      outcome.report.stats.initialNodes = run.stats.initialNodes ∧
      outcome.report.stats.finalNodes = q.size ∧
      outcome.report.termination = reason := by
  rw [finish, hq.toProgram_eq] at h
  cases h
  refine ⟨?_, ?_, rfl, rfl, rfl, liveCount_ofProgram q, rfl⟩
  · cases reason <;> rfl
  · cases reason <;> rfl

/-- If the accounts are in step when a reduction stops, its report adds up. -/
theorem InStep.addsUp {reason : Termination} {outcome : ReductionOutcome}
    (h : r.InStep first candidates nodes q run) (hf : r.logged.finish reason run = .ok outcome) :
    AddsUp r.config first candidates outcome.report := by
  obtain ⟨hcommits, hevents, hcalls, hrejections, hinitial, hfinal, hreason⟩ :=
    report_of_finish h.padded hf
  have hcounted : run.stats.oracleCalls = (first ++ candidates).length := h.calls ▸ h.counted
  have hall : outcome.report.events = first.map r.config.firstEvent ++
      candidates.map r.config.candidateEvent ++ [r.config.lastEvent reason] := by
    rw [hevents, h.events]
  constructor
  case calls => rw [hcalls, hcounted]
  case rejections => rw [hcalls, hcommits, hrejections, h.rejections]
  case events => rw [hall, hreason]
  case events_length =>
    rw [hall, hcalls, hcounted]
    simp only [List.length_append, List.length_map, List.length_singleton]
  case sequence => rw [hcommits, h.sequence]
  case accepted => rw [hcommits, h.accepted]
  case increasing =>
    rw [hcommits, h.accepted]
    exact acceptedCalls_increasing _ _
  case shrinking =>
    rw [hcommits]
    exact h.shrinking
  case nodes => rw [hinitial, h.initialNodes, hcommits, hfinal, h.nodes]

end

/-- The report of a reduction of a program adds up, whatever the oracle answers and however the
reduction ends. The calls of the oracle are the one about the unchanged program, if it is to be made
and a call is allowed, and those about candidates; the counts, the events and the records of the
report agree with them and with each other. -/
theorem reduce_addsUp (r : Reducer σ) (p : Program) (s : σ) :
    ∃ outcome candidates, (r.reduce (ofProgram p) s).1 = .ok outcome ∧
      r.transcript (ofProgram p) s = r.firstCalls p s ++ candidates ∧
      AddsUp r.config (r.firstCalls p s) candidates outcome.report ∧
      outcome.report.stats.initialNodes = (ofProgram p).liveCount ∧
      outcome.report.stats.finalNodes = outcome.arena.liveCount := by
  obtain ⟨q, reason, run, outcome, e⟩ := r.logged.exists_ended p (s, [])
  have harena : (initial p (s, ([] : List Call))).arena = ofProgram p := rfl
  obtain ⟨q', candidates, h⟩ := (r.upholds_inStep (r.firstCalls p s) p.size).search harena
    ⟨[], r.inStep_check p s⟩
  rw [e.search] at h
  obtain ⟨-, -, -, -, hinitial, hfinal, -⟩ := report_of_finish e.padded e.finish
  refine ⟨outcome, candidates, by rw [e.reduce_eq], by rw [e.transcript_eq, h.calls],
    h.addsUp e.finish, ?_, ?_⟩
  · rw [hinitial, h.initialNodes, liveCount_ofProgram]
  · rw [hfinal, e.arena, liveCount_ofProgram]

end Reducer

end ShaderShrink

import ShaderShrink.Proofs.Disk.Performed
import ShaderShrink.Proofs.Pipeline.Notes
import ShaderShrink.Proofs.Text.Tally

/-!
# The accounts of a worker

A worker counts what becomes of the programs that it takes, and writes down an event each time, so
its report can be checked against itself. `WorkerReport.Balanced` says what the numbers and the
events have to do with each other while a worker is at work, and `WorkerReport.AddsUp` what they
have to do with the limit and the number of pairs in the end. The steps of the work keep this up
(`Worker.Examines.balanced`, `Worker.Files.balanced`, `Worker.Minimizes.balanced`), so every report
of a worker adds up (`Worker.runAmong_addsUp`).

The files, the runner and the comparator may do as they like, and so may the others that use the
queue: a worker may share it with producers and other workers, which act between its turns
(`Company`).
-/

namespace ShaderShrink

/-! ## Events -/

namespace Event

/-- The events with a name that went well. -/
def passes (name : String) (events : List Event) : List Event :=
  events.filter fun e => e.outcome = passOutcome ∧ e.event = name

/-- The events with a name that went wrong. -/
def failures (name : String) (events : List Event) : List Event :=
  events.filter fun e => e.outcome = failOutcome ∧ e.event = name

variable {name traceId decisionId component event code : String} {events : List Event}

/-- An event that went well is the last one that went well with its name. -/
@[simp] theorem passes_append_pass :
    passes name (events ++ [.pass traceId decisionId component event]) = passes name events ++
      if event = name then [.pass traceId decisionId component event] else [] := by
  by_cases h : event = name <;> simp [passes, pass, h]

/-- An event that went wrong is none of those that went well. -/
@[simp] theorem passes_append_fail :
    passes name (events ++ [.fail traceId decisionId component event code]) =
      passes name events := by
  simp [passes, fail, failOutcome, passOutcome]

/-- An event that went well is none of those that went wrong. -/
@[simp] theorem failures_append_pass :
    failures name (events ++ [.pass traceId decisionId component event]) =
      failures name events := by
  simp [failures, pass, failOutcome, passOutcome]

/-- An event that went wrong is the last one that went wrong with its name. -/
@[simp] theorem failures_append_fail :
    failures name (events ++ [.fail traceId decisionId component event code]) =
      failures name events ++
        if event = name then [.fail traceId decisionId component event code] else [] := by
  by_cases h : event = name <;> simp [failures, fail, h]

@[simp] theorem decisionId_pass :
    (pass traceId decisionId component event).decisionId = decisionId := rfl

end Event

/-! ## Accounts -/

namespace WorkerReport

/-- The number of programs that were dealt with in one way or another. -/
def examined (r : WorkerReport) : Nat :=
  r.invalid + r.skipped + (Event.passes "oracle_run" r.events).length

/-- The numbers and the reductions of a report agree with its events. -/
structure Tallied (r : WorkerReport) : Prop where
  invalid_eq : r.invalid = (Event.failures "validate" r.events).length
  skipped_eq : r.skipped =
    (Event.failures "serialize" r.events).length + (Event.failures "write_job" r.events).length +
      (Event.failures "oracle_run" r.events).length +
      (Event.failures "write_result" r.events).length
  faults_eq : r.totalFaults = (Event.passes "fault_filed" r.events).length
  mismatches_eq : r.mismatches = (Event.passes "mismatch_filed" r.events).length
  /-- There is a reduction for every event of one, and both name the same job. -/
  reductions_eq : r.reductions.map (fun s => counterLabel s.counter ++ s.jobName) =
    (Event.passes "reduce" r.events).map Event.decisionId

/-- The numbers of a report agree with its events and with each other, and its reductions are of
pairs whose numbers come before `next`. -/
structure Balanced (config : WorkerConfig) (next : Nat) (r : WorkerReport) : Prop
    extends Tallied r where
  ignored_le : r.ignored ≤ (r.faults.get? JobStatus.crash.name).getD 0
  increasing : (r.reductions.map ReductionSummary.counter).Pairwise (· < ·)
  below : ∀ s ∈ r.reductions, s.counter < next
  runOnly : config.mode = .runOnly → r.reductions = []

/-- The report of a worker between two pairs is balanced, and one or two programs were dealt with
for each pair that was taken. -/
structure Settled (config : WorkerConfig) (next : Nat) (r : WorkerReport) : Prop
    extends Balanced config next r where
  consumed_le_examined : r.consumed ≤ r.examined
  examined_le : r.examined ≤ 2 * r.consumed
  examined_eq : config.variantsOnly = true → r.examined = r.consumed

/-- The report of a worker that may take `remaining` more pairs is settled. -/
structure Underway (config : WorkerConfig) (remaining next : Nat) (r : WorkerReport) : Prop
    extends Settled config next r where
  consumed_add : r.consumed + remaining = config.limit.toNat

/-- The report of a worker that ended in time is settled and says whether the limit was reached. -/
structure AddsUp (config : WorkerConfig) (next : Nat) (r : WorkerReport) : Prop
    extends Settled config next r where
  consumed_le : r.consumed ≤ config.limit.toNat
  limitReached_iff : r.stop = .limitReached ↔ r.consumed = config.limit.toNat

section
variable {config : WorkerConfig} {remaining next next' : Nat} {r : WorkerReport}

/-- A report is balanced for any later number. -/
theorem Balanced.mono (hr : r.Balanced config next) (h : next ≤ next') :
    r.Balanced config next' :=
  { hr with below := fun s hs => Nat.lt_of_lt_of_le (hr.below s hs) h }

/-- Notes that leave the list of reductions alone keep a report balanced if they are right. -/
theorem Balanced.noted {r' : WorkerReport} (hr : r.Balanced config next) (h : r.Noted r')
    (htallied : r'.Tallied)
    (hignored : r'.ignored ≤ (r'.faults.get? JobStatus.crash.name).getD 0) :
    r'.Balanced config next :=
  { htallied with
    ignored_le := hignored
    increasing := by rw [h.reductions_eq]; exact hr.increasing
    below := by rw [h.reductions_eq]; exact hr.below
    runOnly := by rw [h.reductions_eq]; exact hr.runOnly }

/-- A report of a worker that is underway is so for any later number. -/
theorem Underway.mono (hr : r.Underway config remaining next) (h : next ≤ next') :
    r.Underway config remaining next' :=
  { hr with toBalanced := hr.toBalanced.mono h }

/-- A worker that has not taken a pair yet is underway. -/
theorem underway_start (config : WorkerConfig) (worker : Option Nat) (next : Nat) :
    (start worker).Underway config config.limit.toNat next where
  invalid_eq := rfl
  skipped_eq := rfl
  faults_eq := rfl
  ignored_le := Nat.le_refl 0
  mismatches_eq := rfl
  reductions_eq := rfl
  increasing := .nil
  below _ h := absurd h List.not_mem_nil
  runOnly _ := rfl
  consumed_le_examined := Nat.le_refl 0
  examined_le := Nat.le_refl 0
  examined_eq _ := rfl
  consumed_add := Nat.zero_add _

/-- At the limit. -/
theorem Underway.limitReached (hr : r.Underway config 0 next) :
    AddsUp config next { r with stop := .limitReached } :=
  { hr with
    consumed_le := Nat.le_of_eq hr.consumed_add
    limitReached_iff := iff_of_true rfl hr.consumed_add }

/-- Before the limit. -/
theorem Underway.queueClosed (hr : r.Underway config (remaining + 1) next) :
    AddsUp config next { r with stop := .queueClosed } :=
  have hlt : r.consumed < config.limit.toNat := by have := hr.consumed_add; omega
  { hr with
    consumed_le := Nat.le_of_lt hlt
    limitReached_iff := iff_of_false (fun h => by cases h) (Nat.ne_of_lt hlt) }

end

end WorkerReport

namespace Worker

variable {σ : Type} {w : Worker σ} {r r' : WorkerReport} {job : ShaderJob} {counter next : Nat}
  {pair : ProgramPair} {execution : Execution} {condition : Condition}

/-! ### Steps -/

/-- The notes on a program that is examined keep the numbers in step with the events. -/
theorem Examines.tallied (h : w.Examines job counter r execution r') (hr : r.Tallied) :
    r'.Tallied := by
  obtain ⟨hinvalid, hskipped, hfaults, hmismatches, hreductions⟩ := hr
  cases h with
  | died => exact ⟨hinvalid, hskipped, hfaults, hmismatches, hreductions⟩
  | invalid code => constructor <;> simpa [noteFail]
  | ran => constructor <;> simpa [notePass]
  | skipped hevent code =>
    simp only [WorkerReport.skipNames, List.mem_cons, List.not_mem_nil, or_false] at hevent
    rcases hevent with rfl | rfl | rfl | rfl <;> constructor <;>
      simp_all [skip, noteFail, WorkerReport.totalFaults] <;> omega

/-- A program that is examined is counted once. -/
theorem Examines.examined (h : w.Examines job counter r execution r') (he : execution ≠ .died) :
    r'.examined = r.examined + 1 := by
  cases h with
  | died => exact absurd rfl he
  | invalid code =>
    simp only [noteFail, WorkerReport.examined, Event.passes_append_fail]
    omega
  | skipped hevent code =>
    simp only [skip, noteFail, WorkerReport.examined, Event.passes_append_fail]
    omega
  | ran => simp [notePass, WorkerReport.examined, Nat.add_assoc]

/-- The notes on a program that is examined keep a report balanced. -/
theorem Examines.balanced (h : w.Examines job counter r execution r')
    (hr : r.Balanced w.config next) : r'.Balanced w.config next :=
  hr.noted h.noted (h.tallied hr.toTallied) (by cases h <;> exact hr.ignored_le)

/-- The notes on a finding that is filed keep the numbers in step with the events. -/
theorem Files.tallied (h : w.Files job counter r r') (hr : r.Tallied) : r'.Tallied := by
  obtain ⟨hinvalid, hskipped, hfaults, hmismatches, hreductions⟩ := hr
  cases h with
  | nothing => exact ⟨hinvalid, hskipped, hfaults, hmismatches, hreductions⟩
  | fault status ignored h =>
    have htotal : (r.faults.bump status.name).total = r.totalFaults + 1 := Text.Tally.total_bump
    constructor <;> simp_all [notePass, countFault, WorkerReport.totalFaults]
  | mismatch => constructor <;> simpa [notePass]
  | lost hevent code =>
    simp only [List.mem_cons, List.not_mem_nil, or_false] at hevent
    rcases hevent with rfl | rfl <;> constructor <;> simpa [noteFail]

/-- The notes on a finding that is filed are not about a further program. -/
theorem Files.examined (h : w.Files job counter r r') : r'.examined = r.examined := by
  cases h with
  | nothing => rfl
  | fault | mismatch => simp [notePass, countFault, WorkerReport.examined]
  | lost hevent code => simp [noteFail, WorkerReport.examined]

/-- Only crashes are ignored. -/
theorem Files.ignored_le (h : w.Files job counter r r')
    (hr : r.ignored ≤ (r.faults.get? JobStatus.crash.name).getD 0) :
    r'.ignored ≤ (r'.faults.get? JobStatus.crash.name).getD 0 := by
  cases h with
  | nothing | mismatch | lost => exact hr
  | fault status ignored h =>
    simp only [notePass, countFault, Text.Tally.get?_bump]
    cases ignored with
    | true =>
      rw [h rfl]
      simpa using hr
    | false =>
      rw [if_neg Bool.false_ne_true]
      split
      · next heq =>
        rw [← heq]
        exact Nat.le_succ_of_le hr
      · exact hr

/-- The notes on a finding that is filed keep a report balanced. -/
theorem Files.balanced (h : w.Files job counter r r') (hr : r.Balanced w.config next) :
    r'.Balanced w.config next :=
  hr.noted h.noted (h.tallied hr.toTallied) (h.ignored_le hr.ignored_le)

/-- The notes on a reduction keep the list of reductions in step with the events. -/
theorem Minimizes.tallied (h : w.Minimizes job counter r condition r') (hr : r.Tallied) :
    r'.Tallied := by
  obtain ⟨hinvalid, hskipped, hfaults, hmismatches, hreductions⟩ := hr
  cases h with
  | died | nothing => exact ⟨hinvalid, hskipped, hfaults, hmismatches, hreductions⟩
  | failed code => constructor <;> simpa [noteFail]
  | reduced summary _ hcounter hname =>
    constructor <;> simpa [notePass, decisionId, hcounter, hname]

/-- The notes on a reduction are not about a further program. -/
theorem Minimizes.examined (h : w.Minimizes job counter r condition r') :
    r'.examined = r.examined := by
  cases h with
  | died | nothing => rfl
  | failed code => simp [noteFail, WorkerReport.examined]
  | reduced summary => simp [notePass, WorkerReport.examined]

/-- A reduction comes behind those of the pairs before its own. -/
theorem Minimizes.balanced (h : w.Minimizes job counter r condition r')
    (hr : r.Balanced w.config counter) : r'.Balanced w.config (counter + 1) := by
  have hbelow (s : ReductionSummary) (hs : s ∈ r.reductions) : s.counter < counter + 1 :=
    Nat.lt_succ_of_lt (hr.below s hs)
  constructor
  case toTallied => exact h.tallied hr.toTallied
  case ignored_le => cases h <;> exact hr.ignored_le
  case increasing =>
    cases h with
    | died | nothing | failed => exact hr.increasing
    | reduced summary _ hcounter =>
      refine (List.map_append ▸ List.pairwise_append.2 ⟨hr.increasing, ?_, ?_⟩)
      · exact List.pairwise_singleton _ _
      · intro n hn m hm
        obtain ⟨s, hs, rfl⟩ := List.mem_map.1 hn
        rw [List.mem_singleton.1 hm, hcounter]
        exact hr.below s hs
  case below =>
    cases h with
    | died | nothing | failed => exact hbelow
    | reduced summary _ hcounter =>
      refine List.forall_mem_append.2 ⟨hbelow, fun s hs => ?_⟩
      rw [List.mem_singleton.1 hs, hcounter]
      exact Nat.lt_succ_self counter
  case runOnly =>
    intro hmode
    cases h with
    | died | nothing | failed => exact hr.runOnly hmode
    | reduced summary h => rw [hmode] at h; cases h

/-! ### Pairs -/

/-- The notes on the reference program of a pair keep a report balanced. -/
theorem WorksOnReference.balanced (h : w.WorksOnReference pair counter r condition r')
    (hr : r.Balanced w.config next) : r'.Balanced w.config next := by
  cases h with
  | died h₁ | handled h₁ => exact h₁.balanced hr
  | ran h₁ h₂ h₃ => exact h₃.balanced (h₂.balanced (h₁.balanced hr))

/-- One program is examined if the reference program of a pair is worked on. -/
theorem WorksOnReference.examined (h : w.WorksOnReference pair counter r .fit r') :
    r'.examined = r.examined + 1 := by
  cases h with
  | handled h₁ => exact h₁.examined (fun h => by cases h)
  | ran h₁ h₂ h₃ => rw [h₃.examined, h₂.examined, h₁.examined (fun h => by cases h)]

/-- The notes on a pair keep a report balanced. -/
theorem WorksOn.balanced (h : w.WorksOn pair counter r condition r')
    (hr : r.Balanced w.config counter) : r'.Balanced w.config (counter + 1) := by
  cases h with
  | died h₁ | handled h₁ => exact (h₁.balanced hr).mono (Nat.le_succ counter)
  | broken h₁ h₂ h₃ | variant h₁ h₂ h₃ => exact h₃.balanced (h₂.balanced (h₁.balanced hr))
  | both h₁ h₂ h₃ _ h₄ => exact h₄.balanced (h₃.balanced (h₂.balanced (h₁.balanced hr)))

/-- One or two programs of a pair are examined, and only one if reference programs are left
alone. -/
theorem WorksOn.examined (h : w.WorksOn pair counter r .fit r') :
    r'.examined = r.examined + 1 ∨
      r'.examined = r.examined + 2 ∧ w.config.variantsOnly = false := by
  cases h with
  | handled h₁ => exact .inl (h₁.examined (fun h => by cases h))
  | variant h₁ h₂ h₃ =>
    exact .inl (by rw [h₃.examined, h₂.examined, h₁.examined (fun h => by cases h)])
  | both h₁ h₂ h₃ honly h₄ =>
    refine .inr ⟨?_, honly⟩
    rw [h₄.examined, h₃.examined, h₂.examined, h₁.examined (fun h => by cases h)]

/-- A pair that is worked on keeps the report adding up. -/
theorem WorksOn.underway {remaining : Nat}
    (h : w.WorksOn pair counter { r with consumed := r.consumed + 1 } .fit r')
    (hr : r.Underway w.config (remaining + 1) counter) :
    r'.Underway w.config remaining (counter + 1) := by
  have htaken : WorkerReport.Balanced w.config counter { r with consumed := r.consumed + 1 } :=
    { hr with }
  have hconsumed : r'.consumed = r.consumed + 1 := h.consumed_eq
  have hexamined : r'.examined = r.examined + 1 ∨
      r'.examined = r.examined + 2 ∧ w.config.variantsOnly = false := h.examined
  have hadd := hr.consumed_add
  have hle := hr.consumed_le_examined
  have hle' := hr.examined_le
  exact { h.balanced htaken with
    consumed_le_examined := by omega
    examined_le := by omega
    examined_eq := fun honly => by
      have heq := hr.examined_eq honly
      rcases hexamined with hone | ⟨-, hboth⟩
      · rw [hone, heq, hconsumed]
      · rw [honly] at hboth
        cases hboth
    consumed_add := by omega }

end Worker

/-- The report of a worker that ended in time. -/
def WorkerEnd.finished? : WorkerEnd → Option WorkerReport
  | .finished report => some report
  | .failed _ | .waiting _ | .died => none

/-- A report is that of a worker that ended in time. -/
theorem WorkerEnd.finished?_eq_some {result : WorkerEnd} {report : WorkerReport} :
    result.finished? = some report ↔ result = .finished report := by
  cases result <;> simp [WorkerEnd.finished?]

/-! ## Others -/

/-- What the others on a queue do before a worker takes a pair: how they leave the queue and the
world, and which numbers of jobs they take. A number is taken once only. -/
structure Company (σ : Type) where
  act : Nat → Pipeline σ → Pipeline σ
  counter_le : ∀ n p, p.counter ≤ (act n p).counter

/-- No others. -/
def Company.none (σ : Type) : Company σ := ⟨fun _ p => p, fun _ _ => Nat.le_refl _⟩

namespace Worker

variable {σ : Type} [Disk σ] {w : Worker σ} {company : Company σ} {r report : WorkerReport}
  {p p' : Pipeline σ} {pair : ProgramPair} {remaining : Nat} {result : WorkerEnd}

/-- Works on the pairs that the queue gives, `remaining` of them at most, where the others act
before each of them is taken. -/
def serveAmong (w : Worker σ) (company : Company σ) :
    Nat → WorkerReport → Pipeline σ → WorkerEnd × Pipeline σ
  | 0, report, p => w.serve 0 report p
  | remaining + 1, report, p =>
    let p := company.act remaining p
    match p.queue.take? with
    | none => (.waiting report, p)
    | some (.cancelled, queue) => (.failed (.cancelled report.consumed), { p with queue })
    | some (.closed, queue) => (.finished { report with stop := .queueClosed }, { p with queue })
    | some (.item pair, queue) =>
      match w.handle pair report { p with queue } with
      | (.ok report, p) => w.serveAmong company remaining report p
      | (.error reason, p) => (reason, p)

/-- Works on the pairs that the queue gives, up to the limit of the worker, among others. -/
def runAmong (w : Worker σ) (company : Company σ) (p : Pipeline σ) : WorkerEnd × Pipeline σ :=
  w.serveAmong company w.config.limit.toNat (.start w.id) p

/-- Without others a worker serves the queue as it is. -/
theorem serveAmong_none (w : Worker σ) (remaining : Nat) (report : WorkerReport) (p : Pipeline σ) :
    w.serveAmong (.none σ) remaining report p = w.serve remaining report p := by
  induction remaining generalizing report p with
  | zero => rfl
  | succ remaining ih =>
    simp only [serveAmong, serve, Company.none]
    cases p.queue.take? with
    | none => rfl
    | some taken =>
      obtain ⟨_ | _ | _, queue⟩ := taken
      · dsimp only
        rcases w.handle _ report { p with queue } with ⟨_ | report, p⟩
        · rfl
        · exact ih report p
      · rfl
      · rfl

/-- Without others a worker works on the queue as it is. -/
theorem runAmong_none (w : Worker σ) (p : Pipeline σ) : w.runAmong (.none σ) p = w.run p :=
  w.serveAmong_none _ _ p

/-! ## The work on a queue -/

/-- The work on a pair that was taken gives no report of the whole work, or it leaves these notes
behind. -/
theorem handle_cases (w : Worker σ) (pair : ProgramPair) (r : WorkerReport) (p : Pipeline σ) :
    (∃ reason p', w.handle pair r p = (.error reason, p') ∧
      ∀ report, reason ≠ .finished report) ∨
    ∃ r' p', w.handle pair r p = (.ok r', p') ∧ p'.counter = p.counter + 1 ∧
      w.WorksOn pair p.counter { r with consumed := r.consumed + 1 } .fit r' := by
  unfold handle
  rcases Archive.resetDir w.workDir p.world with ⟨_ | _, world⟩
  · exact .inl ⟨_, _, rfl, fun _ h => by cases h⟩
  · have hworked : w.WorksOn pair p.counter _ _ _ :=
      workOn_spec (d := ⟨world, { r with consumed := r.consumed + 1 }⟩)
    dsimp only
    rcases hd : w.workOn pair p.counter ⟨world, { r with consumed := r.consumed + 1 }⟩ with
      ⟨_ | _, d⟩
    · rw [hd] at hworked
      exact .inr ⟨_, _, rfl, rfl, hworked⟩
    · exact .inl ⟨_, _, rfl, fun _ h => by cases h⟩

/-- The report of a worker that is underway adds up when it ends in time. -/
theorem serveAmong_addsUp (hr : r.Underway w.config remaining p.counter)
    (h : w.serveAmong company remaining r p = (.finished report, p')) :
    report.AddsUp w.config p'.counter := by
  induction remaining generalizing r p with
  | zero =>
    cases h
    exact hr.limitReached
  | succ remaining ih =>
    have hr₁ := hr.mono (company.counter_le remaining p)
    rw [serveAmong] at h
    generalize company.act remaining p = p₁ at h hr₁
    rcases ht : p₁.queue.take? with _ | ⟨pair | _ | _, queue⟩
    · rw [ht] at h
      cases h
    · rw [ht] at h
      dsimp only at h
      rcases w.handle_cases pair r { p₁ with queue } with
        ⟨reason, p₂, he, hne⟩ | ⟨r₂, p₂, he, hcounter, hworked⟩
      · rw [he] at h
        cases h
        exact absurd rfl (hne report)
      · rw [he] at h
        refine ih ?_ h
        rw [hcounter]
        exact hworked.underway hr₁
    · rw [ht] at h
      cases h
      exact hr₁.queueClosed
    · rw [ht] at h
      cases h

/-- The report of a worker adds up, whatever is queued, whatever the files, the runner and the
comparator do, and whatever the others on the queue do. -/
theorem runAmong_addsUp (w : Worker σ) (company : Company σ) (p : Pipeline σ)
    (h : w.runAmong company p = (.finished report, p')) : report.AddsUp w.config p'.counter :=
  serveAmong_addsUp (WorkerReport.underway_start w.config w.id p.counter) h

/-- A worker that takes two pairs. Its runner counts the programs that it is asked about: the first
one crashes, the second one does not, and the third one is refused. -/
def counting : Worker (Unit × Nat) where
  id := none
  config := .ofLimit 2
  archive := ⟨"out"⟩
  runner :=
    { validate := fun _ s => (s.2 < 2, (s.1, s.2 + 1))
      run := fun _ s => (.result ⟨if s.2 = 1 then .crash else .success, ""⟩, s) }
  comparator reference variant s :=
    (if reference.status = variant.status then .consistent else .mismatch "status", s)
  clock _ n := n

/-- Two pairs of empty programs, and nobody was asked about a program yet. -/
def twoPairs : Pipeline (Unit × Nat) :=
  let job : ShaderJob := ⟨"", "", ⟨[]⟩⟩
  ⟨⟨2, [⟨job, job⟩, ⟨job, job⟩], false, false⟩, 0, (), 0⟩

/-- Others that take a number in front of each pair. -/
def numbering : Company (Unit × Nat) :=
  ⟨fun _ p => { p with counter := p.counter + 1 }, fun _ _ => Nat.le_succ _⟩

/-- The variant of the first pair is filed as a fault, both of its programs as a mismatch, and the
variant of the second pair as invalid. -/
theorem runAmong_addsUp_counting :
    ∃ report p', counting.runAmong numbering twoPairs = (.finished report, p') ∧
      report.AddsUp counting.config p'.counter ∧ report.consumed = 2 ∧ report.invalid = 1 ∧
      report.totalFaults = 1 ∧ report.mismatches = 1 := by
  have hnumbers : (counting.runAmong numbering twoPairs).1.finished?.map
      (fun r => (r.consumed, r.invalid, r.totalFaults, r.mismatches)) = some (2, 1, 1, 1) := by
    decide +kernel
  have hadds (report : WorkerReport) (p' : Pipeline (Unit × Nat))
      (h : counting.runAmong numbering twoPairs = (.finished report, p')) :
      report.AddsUp counting.config p'.counter := runAmong_addsUp counting numbering twoPairs h
  -- from here on the run is not worked out again
  generalize counting.runAmong numbering twoPairs = run at hnumbers hadds
  obtain ⟨report, hreport, hnumbers⟩ := Option.map_eq_some_iff.1 hnumbers
  simp only [Prod.mk.injEq] at hnumbers
  have hrun : run = (.finished report, run.2) :=
    Prod.ext (WorkerEnd.finished?_eq_some.1 hreport) rfl
  exact ⟨report, run.2, hrun, hadds report run.2 hrun, hnumbers⟩

end Worker

end ShaderShrink

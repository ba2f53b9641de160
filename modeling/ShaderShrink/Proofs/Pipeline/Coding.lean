import ShaderShrink.Change.Search
import ShaderShrink.Proofs.Json.Coding
import ShaderShrink.Proofs.Pipeline.Settings
import ShaderShrink.Proofs.Text.Sorted

/-!
# Reports and configurations survive their encoding

What the program writes about itself is decoded from its texts as it was, if its numbers are words
of the program (`CommitRecord.Fits` and so on), and so is what it is told, but for the token, which
is not written (`PipelineConfig.withoutToken`). For each type there are lemmas on what is read from
an encoded value, on its integers and on its depth; no value nests more than four levels deep, so
the limit on texts does not matter here.
-/

namespace ShaderShrink

open Json (Reads Survives word32 word64)
open Json.Fields

/-! ## Named values -/

/-- A kind of changes is decoded from its encoding. -/
theorem ChangeKind.reads_toJson (k : ChangeKind) : Reads ofJson k.toJson k :=
  Json.reads_choice (by cases k <;> rfl)

/-- A status is decoded from its encoding. -/
theorem JobStatus.reads_toJson (s : JobStatus) : Reads ofJson s.toJson s :=
  Json.reads_choice (by cases s <;> rfl)

/-- A reason to end is decoded from its encoding. -/
theorem Termination.reads_toJson (t : Termination) : Reads ofJson t.toJson t :=
  Json.reads_choice (by cases t <;> rfl)

/-- A reason to stop is decoded from its encoding. -/
theorem StopReason.reads_toJson (r : StopReason) : Reads ofJson r.toJson r :=
  Json.reads_choice (by cases r <;> rfl)

/-- A mode is decoded from its encoding. -/
theorem WorkerMode.reads_toJson (m : WorkerMode) : Reads ofJson m.toJson m :=
  Json.reads_choice (by cases m <;> rfl)

/-! ## Tagged and labelled values -/

namespace LiteralValue

/-- A literal is decoded from its encoding. -/
theorem reads_toJson (l : LiteralValue) : Reads ofJson l.toJson l := by
  cases l with
  | int value => exact Json.reads_labelled rfl (by decide) ((Json.reads_int64 value).map int)
  | float text => exact Json.reads_labelled rfl (by decide) ((Json.reads_string text).map float)
  | bool value => exact Json.reads_labelled rfl (by decide) ((Json.reads_boolean value).map bool)

/-- The encoding of a literal has no integer beyond a word. -/
theorem legible_toJson (l : LiteralValue) : l.toJson.Legible := by
  cases l with
  | int value => exact ⟨trivial, Json.legible_int64 value, trivial⟩
  | float | bool => exact ⟨trivial, trivial, trivial⟩

/-- The encoding of a literal is one level deep. -/
theorem depth_toJson (l : LiteralValue) : l.toJson.depth = 1 := by
  cases l <;> rfl

/-- A literal is decoded from both of its texts. -/
theorem survives (l : LiteralValue) : Survives ofJson l.toJson l :=
  l.reads_toJson.survives l.legible_toJson (l.depth_toJson.trans_le (by decide))

end LiteralValue

namespace ComparisonOutcome

/-- The outcome of a comparison is decoded from its encoding. -/
theorem reads_toJson (c : ComparisonOutcome) : Reads ofJson c.toJson c := by
  cases c with
  | mismatch detail =>
    exact Json.reads_variant (mismatch <$> Json.required "detail" Json.string)
      (.map mismatch (gives_required rfl (Json.reads_string detail))) rfl (by decide) (.refl _)
      (by decide)
  | consistent | unsupported => exact Json.reads_tagged (by decide) nofun rfl

/-- The encoding of the outcome of a comparison has no integer beyond a word. -/
theorem legible_toJson (c : ComparisonOutcome) : c.toJson.Legible := by
  cases c with
  | mismatch => exact ⟨trivial, trivial, trivial⟩
  | consistent | unsupported => exact ⟨trivial, trivial⟩

/-- The encoding of the outcome of a comparison is one level deep. -/
theorem depth_toJson (c : ComparisonOutcome) : c.toJson.depth = 1 := by
  cases c <;> rfl

/-- The outcome of a comparison is decoded from both of its texts. -/
theorem survives (c : ComparisonOutcome) : Survives ofJson c.toJson c :=
  c.reads_toJson.survives c.legible_toJson (c.depth_toJson.trans_le (by decide))

end ComparisonOutcome

/-! ## Events -/

namespace Event

/-- An event is decoded from its encoding. -/
theorem reads_toJson (e : Event) : Reads ofJson e.toJson e := by
  have hcode : Reads (Json.nullable Json.string) (Json.orNull (e.errorCode.map .str))
      e.errorCode := Json.reads_orNull nofun fun code _ => Json.reads_string code
  exact Json.reads_record (.seq (.seq (.seq (.seq (.seq (.map mk
    (gives_required rfl (Json.reads_string e.traceId)))
    (gives_required rfl (Json.reads_string e.decisionId)))
    (gives_required rfl (Json.reads_string e.component)))
    (gives_required rfl (Json.reads_string e.event)))
    (gives_required rfl (Json.reads_string e.outcome)))
    (gives_optional (gives_withDefault rfl hcode))) (by simp [Json.depthMembers, Json.depth])
    (.refl _) (by decide)

/-- The encoding of an event has no integer beyond a word. -/
theorem legible_toJson (e : Event) : e.toJson.Legible := by
  have hcode : (Json.orNull (e.errorCode.map .str)).Legible := by
    cases e.errorCode <;> trivial
  exact ⟨trivial, trivial, trivial, trivial, trivial, hcode, trivial⟩

/-- The encoding of an event is one level deep. -/
theorem depth_toJson (e : Event) : e.toJson.depth = 1 := by
  obtain ⟨traceId, decisionId, component, event, outcome, _ | code⟩ := e <;> rfl

/-- An event is decoded from both of its texts. -/
theorem survives (e : Event) : Survives ofJson e.toJson e :=
  e.reads_toJson.survives e.legible_toJson (e.depth_toJson.trans_le (by decide))

end Event

/-! ## Reductions -/

namespace ReductionBudget

/-- A budget is decoded from its encoding. -/
theorem reads_toJson (b : ReductionBudget) : Reads ofJson b.toJson b :=
  Json.reads_record (.seq (.seq (.map mk
    (gives_optional (gives_withDefault rfl (LimitSetting.reads_wordToJson b.maxCommits))))
    (gives_optional (gives_withDefault rfl (LimitSetting.reads_wordToJson b.maxOracleCalls))))
    (gives_optional (gives_withDefault rfl (LimitSetting.reads_wordToJson b.timeBudgetMs))))
    (by simp [Json.depthMembers]) (.refl _) (by decide)

/-- The encoding of a limit has no integer beyond a word. -/
theorem legible_wordToJson (w : Option UInt64) : (wordToJson w).Legible := by
  cases w with
  | none => trivial
  | some w => exact Json.legible_uint64 w

/-- The encoding of a budget has no integer beyond a word. -/
theorem legible_toJson (b : ReductionBudget) : b.toJson.Legible :=
  ⟨legible_wordToJson _, legible_wordToJson _, legible_wordToJson _, trivial⟩

/-- The encoding of a budget is one level deep. -/
theorem depth_toJson (b : ReductionBudget) : b.toJson.depth = 1 := by
  obtain ⟨_ | commits, _ | calls, _ | time⟩ := b <;> rfl

end ReductionBudget

namespace ReductionConfig

/-- The configuration of a reduction is decoded from its encoding. -/
theorem reads_toJson (c : ReductionConfig) : Reads ofJson c.toJson c :=
  Json.reads_record (.seq (.seq (.seq (.seq (.map mk
    (gives_required rfl (Json.reads_string c.jobName)))
    (gives_required rfl (Json.reads_string c.language)))
    (gives_required rfl c.budget.reads_toJson))
    (gives_required rfl (Json.reads_boolean c.checkInitial)))
    (gives_required rfl (Json.reads_string c.traceId)))
    (by simp [Json.depthMembers, Json.depth]) (.refl _) (by decide)

/-- The encoding of the configuration of a reduction has no integer beyond a word. -/
theorem legible_toJson (c : ReductionConfig) : c.toJson.Legible :=
  ⟨trivial, trivial, c.budget.legible_toJson, trivial, trivial, trivial⟩

/-- The encoding of the configuration of a reduction is two levels deep. -/
theorem depth_toJson (c : ReductionConfig) : c.toJson.depth = 2 := by
  simp [toJson, Json.depth, Json.depthMembers, c.budget.depth_toJson]

/-- The configuration of a reduction is decoded from both of its texts. -/
theorem survives (c : ReductionConfig) : Survives ofJson c.toJson c :=
  c.reads_toJson.survives c.legible_toJson (c.depth_toJson.trans_le (by decide))

end ReductionConfig

namespace FinderConfig

/-- The configuration of a search is decoded from its encoding. -/
theorem reads_toJson (c : FinderConfig) : Reads ofJson c.toJson c :=
  Json.reads_record (.seq (.seq (.seq (.seq (.map mk
    (gives_required rfl (Json.reads_boolean c.simplifyExpressions)))
    (gives_required rfl (Json.reads_boolean c.removeStatements)))
    (gives_required rfl (Json.reads_boolean c.removeDeclarations)))
    (gives_required rfl (Json.reads_boolean c.collapseStatements)))
    (gives_required rfl (Json.reads_string c.entryPoint))) rfl (.refl _) (by decide)

/-- The encoding of the configuration of a search has no integer beyond a word. -/
theorem legible_toJson (c : FinderConfig) : c.toJson.Legible :=
  ⟨trivial, trivial, trivial, trivial, trivial, trivial⟩

/-- The encoding of the configuration of a search is one level deep. -/
theorem depth_toJson (c : FinderConfig) : c.toJson.depth = 1 := rfl

/-- The configuration of a search is decoded from both of its texts. -/
theorem survives (c : FinderConfig) : Survives ofJson c.toJson c :=
  c.reads_toJson.survives c.legible_toJson (c.depth_toJson.trans_le (by decide))

end FinderConfig

/-- The numbers of a record are words of the program. -/
structure CommitRecord.Fits (c : CommitRecord) : Prop where
  sequence : c.sequence < word64
  depth : c.depth < word32
  nodesBefore : c.nodesBefore < word64
  nodesAfter : c.nodesAfter < word64
  oracleCall : c.oracleCall < word64

namespace CommitRecord

variable {c : CommitRecord}

/-- The record of a commit whose numbers are words is decoded from its encoding. -/
theorem Fits.reads_toJson (h : c.Fits) : Reads ofJson c.toJson c :=
  Json.reads_record (.seq (.seq (.seq (.seq (.seq (.seq (.map CommitRecord.mk
    (gives_required rfl (Json.reads_nat64 h.sequence)))
    (gives_required rfl c.kind.reads_toJson))
    (gives_required rfl (Json.reads_string c.description)))
    (gives_required rfl (Json.reads_natBelow h.depth)))
    (gives_required rfl (Json.reads_nat64 h.nodesBefore)))
    (gives_required rfl (Json.reads_nat64 h.nodesAfter)))
    (gives_required rfl (Json.reads_nat64 h.oracleCall))) rfl (.refl _) (by decide)

/-- The encoding of the record of a commit whose numbers are words has no integer beyond a word. -/
theorem Fits.legible_toJson (h : c.Fits) : c.toJson.Legible :=
  ⟨Json.legible_nat h.sequence, trivial, trivial,
    Json.legible_nat (h.depth.trans (by decide)), Json.legible_nat h.nodesBefore,
    Json.legible_nat h.nodesAfter, Json.legible_nat h.oracleCall, trivial⟩

/-- The encoding of the record of a commit is one level deep. -/
theorem depth_toJson (c : CommitRecord) : c.toJson.depth = 1 := rfl

/-- The record of a commit whose numbers are words is decoded from both of its texts. -/
theorem Fits.survives (h : c.Fits) : Survives ofJson c.toJson c :=
  h.reads_toJson.survives h.legible_toJson (c.depth_toJson.trans_le (by decide))

end CommitRecord

/-- The counts are words of the program. -/
structure ReductionStats.Fits (s : ReductionStats) : Prop where
  scans : s.scans < word64
  oracleCalls : s.oracleCalls < word64
  rejectedNotInteresting : s.rejectedNotInteresting < word64
  rejectedInvalid : s.rejectedInvalid < word64
  rejectedExecutionError : s.rejectedExecutionError < word64
  rejectedUnserializable : s.rejectedUnserializable < word64
  preconditionMisses : s.preconditionMisses < word64
  applyFailures : s.applyFailures < word64
  initialNodes : s.initialNodes < word64
  finalNodes : s.finalNodes < word64
  elapsedMs : s.elapsedMs < word64

namespace ReductionStats

variable {s : ReductionStats}

/-- The statistics of a reduction whose numbers are words are decoded from their encoding. -/
theorem Fits.reads_toJson (h : s.Fits) : Reads ofJson s.toJson s :=
  Json.reads_record (.seq (.seq (.seq (.seq (.seq (.seq (.seq (.seq (.seq (.seq (.seq (.seq
    (.map ReductionStats.mk (gives_required rfl (Json.reads_nat64 h.scans)))
    (gives_required rfl (Json.reads_nat64 h.oracleCalls)))
    (gives_required rfl (Json.reads_nat64 h.rejectedNotInteresting)))
    (gives_required rfl (Json.reads_nat64 h.rejectedInvalid)))
    (gives_required rfl (Json.reads_nat64 h.rejectedExecutionError)))
    (gives_required rfl (Json.reads_nat64 h.rejectedUnserializable)))
    (gives_required rfl (Json.reads_nat64 h.preconditionMisses)))
    (gives_required rfl (Json.reads_nat64 h.applyFailures)))
    (gives_required rfl (Json.reads_nat64 h.initialNodes)))
    (gives_required rfl (Json.reads_nat64 h.finalNodes)))
    (gives_required rfl (Json.reads_string s.initialHash)))
    (gives_required rfl (Json.reads_string s.reducedHash)))
    (gives_required rfl (Json.reads_nat64 h.elapsedMs))) rfl (.refl _) (by decide)

/-- The encoding of the statistics of a reduction whose numbers are words has no integer beyond a
word. -/
theorem Fits.legible_toJson (h : s.Fits) : s.toJson.Legible :=
  ⟨Json.legible_nat h.scans, Json.legible_nat h.oracleCalls,
    Json.legible_nat h.rejectedNotInteresting, Json.legible_nat h.rejectedInvalid,
    Json.legible_nat h.rejectedExecutionError, Json.legible_nat h.rejectedUnserializable,
    Json.legible_nat h.preconditionMisses, Json.legible_nat h.applyFailures,
    Json.legible_nat h.initialNodes, Json.legible_nat h.finalNodes, trivial, trivial,
    Json.legible_nat h.elapsedMs, trivial⟩

/-- The encoding of the statistics of a reduction is one level deep. -/
theorem depth_toJson (s : ReductionStats) : s.toJson.depth = 1 := rfl

/-- The statistics of a reduction whose numbers are words are decoded from both of their texts. -/
theorem Fits.survives (h : s.Fits) : Survives ofJson s.toJson s :=
  h.reads_toJson.survives h.legible_toJson (s.depth_toJson.trans_le (by decide))

end ReductionStats

/-- The numbers in a report are words of the program. -/
structure ReductionReport.Fits (r : ReductionReport) : Prop where
  commits : ∀ c ∈ r.commits, c.Fits
  stats : r.stats.Fits

namespace ReductionReport

variable {r : ReductionReport}

/-- The report of a reduction whose numbers are words is decoded from its encoding. -/
theorem Fits.reads_toJson (h : r.Fits) : Reads ofJson r.toJson r := by
  have hcommits := Json.reads_list_map r.commits fun c hc => (h.commits c hc).reads_toJson
  have hevents := Json.reads_list_map r.events fun e _ => e.reads_toJson
  exact Json.reads_record (.seq (.seq (.seq (.seq (.seq (.map ReductionReport.mk
    (gives_required rfl (Json.reads_string r.jobName)))
    (gives_required rfl (Json.reads_string r.traceId)))
    (gives_required rfl r.termination.reads_toJson))
    (gives_required rfl hcommits)) (gives_required rfl h.stats.reads_toJson))
    (gives_required rfl hevents))
    (by simp [Json.depthMembers, Json.depth, Termination.toJson]) (.refl _) (by decide)

/-- The encoding of the report of a reduction whose numbers are words has no integer beyond a
word. -/
theorem Fits.legible_toJson (h : r.Fits) : r.toJson.Legible :=
  ⟨trivial, trivial, trivial, Json.legibleItems_map fun c hc => (h.commits c hc).legible_toJson,
    h.stats.legible_toJson, Json.legibleItems_map fun e _ => e.legible_toJson, trivial⟩

/-- The encoding of the report of a reduction is at most three levels deep. -/
theorem depth_toJson_le (r : ReductionReport) : r.toJson.depth ≤ 3 := by
  have hcommits : Json.depthItems (r.commits.map CommitRecord.toJson) ≤ 1 :=
    Json.depthItems_le (by simp [CommitRecord.depth_toJson])
  have hevents : Json.depthItems (r.events.map Event.toJson) ≤ 1 :=
    Json.depthItems_le (by simp [Event.depth_toJson])
  simp only [toJson, Json.depth, Json.depthMembers, Termination.toJson, r.stats.depth_toJson]
  omega

/-- The report of a reduction whose numbers are words is decoded from both of its texts. -/
theorem Fits.survives (h : r.Fits) : Survives ofJson r.toJson r :=
  h.reads_toJson.survives h.legible_toJson (r.depth_toJson_le.trans (by decide))

end ReductionReport

/-! ## Workers -/

/-- A set of words is decoded from the list of its words. -/
theorem reads_wordsToJson (s : Text.WordSet) : Reads wordsOfJson (wordsToJson s) s := by
  have hlist : Reads (Json.list Json.string) (wordsToJson s) s.toList :=
    Json.reads_list_map s.toList fun word _ => Json.reads_string word
  have hset := hlist.map Text.WordSet.ofList
  rwa [s.ofList_toList] at hset

/-- There are no integers in strings. -/
theorem legibleItems_map_str (words : List String) : Json.LegibleItems (words.map .str) :=
  Json.legibleItems_map fun _ _ => trivial

/-- Strings do not nest. -/
theorem depthItems_map_str (words : List String) : Json.depthItems (words.map .str) = 0 :=
  Nat.le_zero.1 (Json.depthItems_le (by simp [Json.depth]))

namespace WorkerConfig

/-- The configuration of a worker is decoded from its encoding. -/
theorem reads_toJson (c : WorkerConfig) : Reads ofJson c.toJson c :=
  Json.reads_record (.seq (.seq (.seq (.seq (.seq (.map mk
    (gives_required rfl (Json.reads_uint64 c.limit)))
    (gives_required rfl c.mode.reads_toJson))
    (gives_required rfl (Json.reads_boolean c.variantsOnly)))
    (gives_required rfl (reads_wordsToJson c.ignoreStrings)))
    (gives_required rfl c.budget.reads_toJson))
    (gives_required rfl (Json.reads_string c.traceId)))
    (by simp [Json.depthMembers, Json.depth, WorkerMode.toJson]) (.refl _) (by decide)

/-- The encoding of the configuration of a worker has no integer beyond a word. -/
theorem legible_toJson (c : WorkerConfig) : c.toJson.Legible :=
  ⟨Json.legible_uint64 c.limit, trivial, trivial, legibleItems_map_str _, c.budget.legible_toJson,
    trivial, trivial⟩

/-- The encoding of the configuration of a worker is two levels deep. -/
theorem depth_toJson (c : WorkerConfig) : c.toJson.depth = 2 := by
  simp [toJson, wordsToJson, Json.depth, Json.depthMembers, WorkerMode.toJson, depthItems_map_str,
    c.budget.depth_toJson]

/-- The configuration of a worker is decoded from both of its texts. -/
theorem survives (c : WorkerConfig) : Survives ofJson c.toJson c :=
  c.reads_toJson.survives c.legible_toJson (c.depth_toJson.trans_le (by decide))

end WorkerConfig

/-- The numbers of a summary are words of the program. -/
structure ReductionSummary.Fits (s : ReductionSummary) : Prop where
  counter : s.counter < word64
  commits : s.commits < word64
  initialNodes : s.initialNodes < word64
  finalNodes : s.finalNodes < word64

namespace ReductionSummary

variable {s : ReductionSummary}

/-- The summary of a reduction whose numbers are words is decoded from its encoding. -/
theorem Fits.reads_toJson (h : s.Fits) : Reads ofJson s.toJson s := by
  have hartifacts := Json.reads_list_map s.artifacts fun path _ => Json.reads_string path
  exact Json.reads_record (.seq (.seq (.seq (.seq (.seq (.seq (.seq (.map ReductionSummary.mk
    (gives_required rfl (Json.reads_nat64 h.counter)))
    (gives_required rfl (Json.reads_string s.jobName)))
    (gives_required rfl s.status.reads_toJson))
    (gives_required rfl s.termination.reads_toJson))
    (gives_required rfl (Json.reads_nat64 h.commits)))
    (gives_required rfl (Json.reads_nat64 h.initialNodes)))
    (gives_required rfl (Json.reads_nat64 h.finalNodes)))
    (gives_required rfl hartifacts))
    (by simp [Json.depthMembers, Json.depth, JobStatus.toJson, Termination.toJson]) (.refl _)
    (by decide)

/-- The encoding of the summary of a reduction whose numbers are words has no integer beyond a
word. -/
theorem Fits.legible_toJson (h : s.Fits) : s.toJson.Legible :=
  ⟨Json.legible_nat h.counter, trivial, trivial, trivial, Json.legible_nat h.commits,
    Json.legible_nat h.initialNodes, Json.legible_nat h.finalNodes, legibleItems_map_str _,
    trivial⟩

/-- The encoding of the summary of a reduction is two levels deep. -/
theorem depth_toJson (s : ReductionSummary) : s.toJson.depth = 2 := by
  simp [toJson, Json.depth, Json.depthMembers, JobStatus.toJson, Termination.toJson,
    depthItems_map_str]

/-- The summary of a reduction whose numbers are words is decoded from both of its texts. -/
theorem Fits.survives (h : s.Fits) : Survives ofJson s.toJson s :=
  h.reads_toJson.survives h.legible_toJson (s.depth_toJson.trans_le (by decide))

end ReductionSummary

/-- The numbers in a report are words of the program. -/
structure WorkerReport.Fits (r : WorkerReport) : Prop where
  worker : ∀ id ∈ r.worker, id < word64
  consumed : r.consumed < word64
  invalid : r.invalid < word64
  skipped : r.skipped < word64
  faults : ∀ e ∈ r.faults.entries, e.2 < word64
  ignored : r.ignored < word64
  mismatches : r.mismatches < word64
  reductions : ∀ s ∈ r.reductions, s.Fits

namespace WorkerReport

variable {r : WorkerReport}

/-- A number is written as an integer, if there is one. -/
theorem map_int (worker : Option Nat) :
    (worker.map fun id => Json.int id) = worker.map fun id : Nat => Json.int id := by
  cases worker <;> rfl

/-- The report of a worker whose numbers are words is decoded from its encoding. -/
theorem Fits.reads_toJson (h : r.Fits) : Reads ofJson r.toJson r := by
  have hworker : Reads (Json.nullable Json.nat64) (Json.orNull (r.worker.map fun id => .int id))
      r.worker := by
    rw [map_int]
    exact Json.reads_orNull nofun fun id hid => Json.reads_nat64 (h.worker id hid)
  have hfaults : Reads faultsOfJson (.obj (r.faults.entries.map fun e => (e.1, .int e.2)))
      r.faults := by
    have hentries := Json.reads_entries (fun n : Nat => .int n) r.faults.entries fun e he =>
      Json.reads_nat64 (h.faults e he)
    have htally := hentries.map Text.Tally.ofList
    rwa [r.faults.ofList_entries] at htally
  have hreductions := Json.reads_list_map r.reductions fun s hs => (h.reductions s hs).reads_toJson
  have hevents := Json.reads_list_map r.events fun e _ => e.reads_toJson
  exact Json.reads_record (.seq (.seq (.seq (.seq (.seq (.seq (.seq (.seq (.seq
    (.map WorkerReport.mk (gives_optional (gives_withDefault rfl hworker)))
    (gives_required rfl (Json.reads_nat64 h.consumed)))
    (gives_required rfl r.stop.reads_toJson))
    (gives_required rfl (Json.reads_nat64 h.invalid)))
    (gives_required rfl (Json.reads_nat64 h.skipped)))
    (gives_required rfl hfaults))
    (gives_required rfl (Json.reads_nat64 h.ignored)))
    (gives_required rfl (Json.reads_nat64 h.mismatches)))
    (gives_required rfl hreductions))
    (gives_required rfl hevents))
    (by simp [Json.depthMembers, Json.depth, StopReason.toJson, max_assoc]) (.refl _) (by decide)

/-- The encoding of the report of a worker whose numbers are words has no integer beyond a word. -/
theorem Fits.legible_toJson (h : r.Fits) : r.toJson.Legible := by
  have hworker : (Json.orNull (r.worker.map fun id => .int id)).Legible := by
    cases hid : r.worker with
    | none => trivial
    | some id => exact Json.legible_nat (h.worker id hid)
  exact ⟨hworker, Json.legible_nat h.consumed, trivial, Json.legible_nat h.invalid,
    Json.legible_nat h.skipped,
    Json.legibleMembers_map fun e he => Json.legible_nat (h.faults e he),
    Json.legible_nat h.ignored, Json.legible_nat h.mismatches,
    Json.legibleItems_map fun s hs => (h.reductions s hs).legible_toJson,
    Json.legibleItems_map fun e _ => e.legible_toJson, trivial⟩

/-- The encoding of the report of a worker is at most four levels deep. -/
theorem depth_toJson_le (r : WorkerReport) : r.toJson.depth ≤ 4 := by
  have hworker : (Json.orNull (r.worker.map fun id => .int id)).depth = 0 := by
    cases r.worker <;> rfl
  have hfaults : Json.depthMembers (r.faults.entries.map fun e => (e.1, .int e.2)) = 0 := by
    refine Nat.le_zero.1 (Json.depthMembers_le fun member hm => ?_)
    obtain ⟨e, -, rfl⟩ := List.mem_map.1 hm
    exact le_rfl
  have hreductions : Json.depthItems (r.reductions.map ReductionSummary.toJson) ≤ 2 :=
    Json.depthItems_le (by simp [ReductionSummary.depth_toJson])
  have hevents : Json.depthItems (r.events.map Event.toJson) ≤ 1 :=
    Json.depthItems_le (by simp [Event.depth_toJson])
  simp only [toJson, Json.depth, Json.depthMembers, StopReason.toJson, hworker, hfaults]
  omega

/-- The report of a worker whose numbers are words is decoded from both of its texts. -/
theorem Fits.survives (h : r.Fits) : Survives ofJson r.toJson r :=
  h.reads_toJson.survives h.legible_toJson (r.depth_toJson_le.trans (by decide))

end WorkerReport

/-! ## Settings of the pipeline -/

/-- The settings of the service with the token taken out. -/
def OracleEndpoint.withoutToken (o : OracleEndpoint) : OracleEndpoint := { o with token := none }

namespace OracleEndpoint

/-- The token is not written. -/
theorem toJson_withoutToken (o : OracleEndpoint) : o.withoutToken.toJson = o.toJson := rfl

/-- The address of an oracle is decoded from its encoding, but for the token. -/
theorem reads_toJson (o : OracleEndpoint) : Reads ofJson o.toJson o.withoutToken :=
  Json.reads_record (.seq (.seq (.map mk
    (gives_withDefault rfl (Json.reads_string o.baseUrl)))
    (gives_default (fun _ => rfl) nofun))
    (gives_withDefault rfl (Json.reads_uint64 o.timeoutSecs))) rfl
    (.cons_cons _ (.cons _ (.refl _))) (by decide)

/-- The encoding of the address of an oracle has no integer beyond a word. -/
theorem legible_toJson (o : OracleEndpoint) : o.toJson.Legible :=
  ⟨trivial, Json.legible_uint64 o.timeoutSecs, trivial⟩

/-- The encoding of the address of an oracle is one level deep. -/
theorem depth_toJson (o : OracleEndpoint) : o.toJson.depth = 1 := rfl

/-- The address of an oracle is decoded from both of its texts, but for the token. -/
theorem survives (o : OracleEndpoint) : Survives ofJson o.toJson o.withoutToken :=
  o.reads_toJson.survives o.legible_toJson (o.depth_toJson.trans_le (by decide))

/-- Settings have the same texts if and only if they differ in the token at most. -/
theorem texts_eq_iff (o o' : OracleEndpoint) :
    (o.toJson.compact = o'.toJson.compact ↔ o.withoutToken = o'.withoutToken) ∧
      (o.toJson.pretty = o'.toJson.pretty ↔ o.withoutToken = o'.withoutToken) := by
  have hjson (h : o.withoutToken = o'.withoutToken) : o.toJson = o'.toJson := by
    rw [← o.toJson_withoutToken, h, o'.toJson_withoutToken]
  exact ⟨⟨o.survives.eq_of_compact o'.survives, fun h => congrArg Json.compact (hjson h)⟩,
    o.survives.eq_of_pretty o'.survives, fun h => congrArg Json.pretty (hjson h)⟩

end OracleEndpoint

/-- The settings of the pipeline with the token taken out. -/
def PipelineConfig.withoutToken (c : PipelineConfig) : PipelineConfig :=
  { c with oracle := c.oracle.withoutToken }

namespace PipelineConfig

/-- The token is not written. -/
theorem toJson_withoutToken (c : PipelineConfig) : c.withoutToken.toJson = c.toJson := rfl

/-- A configuration is decoded from its encoding, but for the token. -/
theorem reads_toJson (c : PipelineConfig) : Reads ofJson c.toJson c.withoutToken :=
  Json.reads_record (.seq (.seq (.seq (.seq (.seq (.seq (.seq (.seq (.seq (.map mk
    (gives_withDefault rfl (Json.reads_string c.outputDir)))
    (gives_withDefault rfl (Json.reads_string c.language)))
    (gives_withDefault rfl c.oracle.reads_toJson))
    (gives_withDefault rfl (Json.reads_uint64 c.jobLimit)))
    (gives_withDefault rfl (Json.reads_uint64 c.workers)))
    (gives_withDefault rfl (Json.reads_uint64 c.queueCapacity)))
    (gives_withDefault rfl (reads_wordsToJson c.ignoreStrings)))
    (gives_withDefault rfl (Json.reads_boolean c.variantsOnly)))
    (gives_withDefault rfl c.mode.reads_toJson))
    (gives_withDefault rfl c.budget.reads_toJson))
    (by simp [Json.depthMembers, Json.depth, WorkerMode.toJson, max_assoc]) (.refl _) (by decide)

/-- The encoding of a configuration has no integer beyond a word. -/
theorem legible_toJson (c : PipelineConfig) : c.toJson.Legible :=
  ⟨trivial, trivial, c.oracle.legible_toJson, Json.legible_uint64 c.jobLimit,
    Json.legible_uint64 c.workers, Json.legible_uint64 c.queueCapacity, legibleItems_map_str _,
    trivial, trivial, c.budget.legible_toJson, trivial⟩

/-- The encoding of a configuration is two levels deep. -/
theorem depth_toJson (c : PipelineConfig) : c.toJson.depth = 2 := by
  simp [toJson, wordsToJson, Json.depth, Json.depthMembers, WorkerMode.toJson, depthItems_map_str,
    c.oracle.depth_toJson, c.budget.depth_toJson]

/-- A configuration is decoded from both of its texts, but for the token. -/
theorem survives (c : PipelineConfig) : Survives ofJson c.toJson c.withoutToken :=
  c.reads_toJson.survives c.legible_toJson (c.depth_toJson.trans_le (by decide))

/-- Settings have the same texts if and only if they differ in the token at most. -/
theorem texts_eq_iff (c c' : PipelineConfig) :
    (c.toJson.compact = c'.toJson.compact ↔ c.withoutToken = c'.withoutToken) ∧
      (c.toJson.pretty = c'.toJson.pretty ↔ c.withoutToken = c'.withoutToken) := by
  have hjson (h : c.withoutToken = c'.withoutToken) : c.toJson = c'.toJson := by
    rw [← c.toJson_withoutToken, h, c'.toJson_withoutToken]
  exact ⟨⟨c.survives.eq_of_compact c'.survives, fun h => congrArg Json.compact (hjson h)⟩,
    c.survives.eq_of_pretty c'.survives, fun h => congrArg Json.pretty (hjson h)⟩

end PipelineConfig

/-! ## Texts -/

/-- Reports and their parts, of which the numbers are words of the program, are decoded from their
texts, and so are configurations; those of the service and of the pipeline lose the token. Two of
these have the same texts if and only if they differ in the token at most. -/
theorem report_texts_roundtrip :
    (∀ r : ReductionReport, r.Fits → Survives ReductionReport.ofJson r.toJson r) ∧
    (∀ r : WorkerReport, r.Fits → Survives WorkerReport.ofJson r.toJson r) ∧
    (∀ s : ReductionSummary, s.Fits → Survives ReductionSummary.ofJson s.toJson s) ∧
    (∀ c : CommitRecord, c.Fits → Survives CommitRecord.ofJson c.toJson c) ∧
    (∀ s : ReductionStats, s.Fits → Survives ReductionStats.ofJson s.toJson s) ∧
    (∀ e : Event, Survives Event.ofJson e.toJson e) ∧
    (∀ c : ReductionConfig, Survives ReductionConfig.ofJson c.toJson c) ∧
    (∀ c : FinderConfig, Survives FinderConfig.ofJson c.toJson c) ∧
    (∀ c : WorkerConfig, Survives WorkerConfig.ofJson c.toJson c) ∧
    (∀ l : LiteralValue, Survives LiteralValue.ofJson l.toJson l) ∧
    (∀ c : ComparisonOutcome, Survives ComparisonOutcome.ofJson c.toJson c) ∧
    (∀ c : PipelineConfig, Survives PipelineConfig.ofJson c.toJson c.withoutToken) ∧
    (∀ o : OracleEndpoint, Survives OracleEndpoint.ofJson o.toJson o.withoutToken) ∧
    (∀ c c' : PipelineConfig,
      (c.toJson.compact = c'.toJson.compact ↔ c.withoutToken = c'.withoutToken) ∧
      (c.toJson.pretty = c'.toJson.pretty ↔ c.withoutToken = c'.withoutToken)) ∧
    ∀ o o' : OracleEndpoint,
      (o.toJson.compact = o'.toJson.compact ↔ o.withoutToken = o'.withoutToken) ∧
      (o.toJson.pretty = o'.toJson.pretty ↔ o.withoutToken = o'.withoutToken) :=
  ⟨fun _ h => h.survives, fun _ h => h.survives, fun _ h => h.survives, fun _ h => h.survives,
    fun _ h => h.survives, Event.survives, ReductionConfig.survives, FinderConfig.survives,
    WorkerConfig.survives, LiteralValue.survives, ComparisonOutcome.survives,
    PipelineConfig.survives, OracleEndpoint.survives, PipelineConfig.texts_eq_iff,
    OracleEndpoint.texts_eq_iff⟩

/-- A record with the largest numbers that there are. -/
def CommitRecord.largest : CommitRecord :=
  ⟨word64 - 1, .removeStatement, "", word32 - 1, word64 - 1, word64 - 1, word64 - 1⟩

/-- Counts with the largest numbers that there are. -/
def ReductionStats.largest : ReductionStats :=
  ⟨word64 - 1, word64 - 1, word64 - 1, word64 - 1, word64 - 1, word64 - 1, word64 - 1, word64 - 1,
    word64 - 1, word64 - 1, "", "", word64 - 1⟩

/-- A summary with the largest numbers that there are. -/
def ReductionSummary.largest : ReductionSummary :=
  ⟨word64 - 1, "", .crash, .fixpoint, word64 - 1, word64 - 1, word64 - 1, ["a", "b"]⟩

/-- A report on a change with the largest numbers that there are. -/
def ReductionReport.largest : ReductionReport := ⟨"", "", .fixpoint, [.largest], .largest, []⟩

/-- A report on a job with the largest numbers that there are. -/
def WorkerReport.largest : WorkerReport :=
  ⟨some (word64 - 1), word64 - 1, .queueClosed, word64 - 1, word64 - 1,
    .ofList [("CRASH", word64 - 1)], word64 - 1, word64 - 1, [.largest], []⟩

/-- Reports with the largest numbers that there are survive. -/
theorem report_texts_roundtrip_largest :
    Survives ReductionReport.ofJson ReductionReport.largest.toJson .largest ∧
    Survives WorkerReport.ofJson WorkerReport.largest.toJson .largest ∧
    Survives ReductionSummary.ofJson ReductionSummary.largest.toJson .largest ∧
    Survives CommitRecord.ofJson CommitRecord.largest.toJson .largest ∧
    Survives ReductionStats.ofJson ReductionStats.largest.toJson .largest := by
  have hcommit : CommitRecord.largest.Fits := by
    constructor <;> decide
  have hstats : ReductionStats.largest.Fits := by
    constructor <;> decide
  have hsummary : ReductionSummary.largest.Fits := by
    constructor <;> decide
  have hreduction : ReductionReport.largest.Fits :=
    ⟨List.forall_mem_singleton.2 hcommit, hstats⟩
  have hworker : WorkerReport.largest.Fits :=
    ⟨by decide, by decide, by decide, by decide, by decide, by decide, by decide,
      List.forall_mem_singleton.2 hsummary⟩
  obtain ⟨hreductions, hworkers, hsummaries, hcommits, hcounts, -⟩ := report_texts_roundtrip
  exact ⟨hreductions _ hreduction, hworkers _ hworker, hsummaries _ hsummary, hcommits _ hcommit,
    hcounts _ hstats⟩

end ShaderShrink

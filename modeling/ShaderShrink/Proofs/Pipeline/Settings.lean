import Mathlib.Order.MinMax
import ShaderShrink.Pipeline.Settings
import ShaderShrink.Proofs.Json.Decoding

/-!
# What a configuration file makes of the defaults

A configuration file is an object that writes some settings, in any order and each at most once; the
settings of the service and the limits of reductions are objects of that kind again (`Overrides`).
Decoding a file changes the settings that it writes, and the other ones keep their defaults
(`PipelineConfig.decode_overrides`). This goes on inside the settings of the service, but not inside
the limits of reductions: where a file has an object for them, a limit that it does not write is no
limit at all, and the default is lost (`PipelineConfig.not_decode_overrides`).

For each field there is a lemma that says which setting it hangs on (`Overrides.Sets`). What is
found under its name then decides about it (`Overrides.lookup_members`).
-/

namespace ShaderShrink

open Json (Decoder Reads depthUnder)

/-! ## Overrides -/

/-- The settings that an object may write. -/
class Setting (σ : Type) where
  key : σ → String
  value : σ → Json

/-- Settings that an object writes, each at most once. -/
structure Overrides (σ : Type) [Setting σ] where
  /-- The settings in the order in which they are written. -/
  toList : List σ
  nodup : (toList.map Setting.key).Nodup

namespace Overrides

section
variable {σ α γ : Type} [Setting σ] {set : σ → γ → γ} {decode : Decoder α} {name : String}

/-- The members of the object. -/
def members (ws : Overrides σ) : List (String × Json) :=
  ws.toList.map fun s => (Setting.key s, Setting.value s)

/-- The object. -/
def toJson (ws : Overrides σ) : Json := .obj ws.members

/-- What the settings make of a value, each of them by `set`. -/
def apply (set : σ → γ → γ) (ws : Overrides σ) (c : γ) : γ := ws.toList.foldr set c

/-- No setting that could be written is left out. -/
def Complete (ws : Overrides σ) : Prop := ∀ s : σ, Setting.key s ∈ ws.toList.map Setting.key

/-- The names in the object are those of the settings, in their order. -/
theorem keys_members (ws : Overrides σ) : ws.members.map (·.1) = ws.toList.map Setting.key := by
  rw [members, List.map_map]
  rfl

/-- A setting is written under the name, and then a field becomes what its value reads as, or it is
written under another name and leaves the field alone. -/
def Sets (name : String) (decode : Decoder α) (set : σ → γ → γ) (get : γ → α) : Prop :=
  ∀ s c, (Setting.key s = name ∧ Reads decode (Setting.value s) (get (set s c))) ∨
    (Setting.key s ≠ name ∧ get (set s c) = get c)

/-- What is found under the name of a field decides about the field. -/
theorem lookup_members {get : γ → α} (hset : Sets name decode set get) (ws : Overrides σ) (c : γ) :
    match ws.members.lookup name with
    | none => get (ws.apply set c) = get c
    | some v => Reads decode v (get (ws.apply set c)) := by
  rw [members, apply]
  induction ws.toList with
  | nil => rfl
  | cons s rest ih =>
    rw [List.map_cons, List.lookup_cons, List.foldr_cons]
    obtain ⟨hkey, hreads⟩ | ⟨hkey, hget⟩ := hset s (rest.foldr set c)
    · rw [beq_iff_eq.2 hkey.symm]
      exact hreads
    · rw [beq_false_of_ne hkey.symm, hget]
      exact ih

/-- A field whose name is written does not depend on the old value. -/
theorem get_apply_congr {get : γ → α} (hset : Sets name decode set get) (ws : Overrides σ)
    (h : name ∈ ws.toList.map Setting.key) (c c' : γ) :
    get (ws.apply set c) = get (ws.apply set c') := by
  have hlookup := lookup_members hset ws
  cases hv : ws.members.lookup name with
  | none =>
    rw [← keys_members] at h
    obtain ⟨member, hmem, rfl⟩ := List.mem_map.1 h
    exact absurd rfl (bne_iff_ne.1 (List.lookup_eq_none_iff.1 hv member hmem))
  | some v =>
    simp only [hv] at hlookup
    exact (hlookup c).unique (hlookup c')

/-- A field is read from its value, and from the old value where none is written. -/
theorem gives {get : γ → α} (hset : Sets name decode set get) (ws : Overrides σ) (c : γ) :
    (Json.withDefault name (get c) decode).Gives ws.members (depthUnder ws.members name)
      (get (ws.apply set c)) := by
  have hlookup := lookup_members hset ws c
  refine Json.Fields.gives_default (fun hnone => ?_) fun v hv => ?_
  · rwa [hnone] at hlookup
  · rwa [hv] at hlookup

/-- The object is read if its fields are, however deep the values under the keys nest. -/
theorem reads_toJson {keys : List String} {fields : Json.Fields α} {a : α} {d : Nat}
    (ws : Overrides σ) (h : fields.Gives ws.members d a) (hkeys : ∀ s : σ, Setting.key s ∈ keys)
    (hle : ∀ name ∈ keys, depthUnder ws.members name ≤ d)
    (hge : d ≤ Json.depthMembers ws.members) :
    Reads (Json.record keys fields) ws.toJson a := by
  have hnd : (ws.members.map (·.1)).Nodup := by
    rw [keys_members]
    exact ws.nodup
  have hsub : ws.members.map (·.1) ⊆ keys := by
    rw [keys_members]
    intro name hname
    obtain ⟨s, -, rfl⟩ := List.mem_map.1 hname
    exact hkeys s
  exact Json.reads_members h (Json.eq_depthMembers hsub hnd hle hge) hsub hnd

/-- The object nests one level deeper than its deepest value. -/
theorem depth_toJson_le {n : Nat} (ws : Overrides σ)
    (h : ∀ s : σ, (Setting.value s).depth ≤ n) : ws.toJson.depth ≤ n + 1 := by
  refine Nat.succ_le_succ (Json.depthMembers_le fun member hmem => ?_)
  obtain ⟨s, -, rfl⟩ := List.mem_map.1 hmem
  exact h s

/-- The object is legible if every value that a setting may have is. -/
theorem legible_toJson (ws : Overrides σ) (h : ∀ s : σ, (Setting.value s).Legible) :
    ws.toJson.Legible :=
  Json.legibleMembers_map fun s _ => h s

end

end Overrides

open Overrides (Sets)

/-! ## Settings of the service -/

/-- A setting of the service as a file writes it. -/
inductive EndpointSetting where
  | baseUrl (url : String)
  | token (text : Option String)
  | timeoutSecs (seconds : UInt64)

namespace EndpointSetting

instance : Setting EndpointSetting where
  key
    | baseUrl _ => "base_url"
    | token _ => "token"
    | timeoutSecs _ => "timeout_secs"
  value
    | baseUrl url => .str url
    | token text => Json.orNull (text.map .str)
    | timeoutSecs seconds => .int seconds.toNat

/-- Puts the setting in place of the old one. -/
def set : EndpointSetting → OracleEndpoint → OracleEndpoint
  | baseUrl url, o => { o with baseUrl := url }
  | token text, o => { o with token := text }
  | timeoutSecs seconds, o => { o with timeoutSecs := seconds }

/-- The address of the service hangs on the setting that writes it. -/
theorem sets_baseUrl : Sets "base_url" Json.string set OracleEndpoint.baseUrl := by
  intro s o
  cases s with
  | baseUrl url => exact .inl ⟨rfl, Json.reads_string url⟩
  | token | timeoutSecs => exact .inr ⟨by simp [Setting.key], rfl⟩

/-- The token for the service hangs on the setting that writes it. -/
theorem sets_token : Sets "token" (Json.nullable Json.string) set OracleEndpoint.token := by
  intro s o
  cases s with
  | token text => exact .inl ⟨rfl, Json.reads_orNull nofun fun text _ => Json.reads_string text⟩
  | baseUrl | timeoutSecs => exact .inr ⟨by simp [Setting.key], rfl⟩

/-- The time to wait for the service hangs on the setting that writes it. -/
theorem sets_timeoutSecs : Sets "timeout_secs" Json.uint64 set OracleEndpoint.timeoutSecs := by
  intro s o
  cases s with
  | timeoutSecs seconds => exact .inl ⟨rfl, Json.reads_uint64 seconds⟩
  | baseUrl | token => exact .inr ⟨by simp [Setting.key], rfl⟩

/-- The settings of the service have scalar values. -/
theorem depth_value (s : EndpointSetting) : (Setting.value s).depth ≤ 0 := by
  rcases s with url | (_ | text) | seconds <;> exact le_rfl

/-- The values of the settings of the service have no integer beyond a word. -/
theorem legible_value (s : EndpointSetting) : (Setting.value s).Legible := by
  rcases s with url | (_ | text) | seconds
  · trivial
  · trivial
  · trivial
  · exact Json.legible_uint64 seconds

end EndpointSetting

/-- An object with settings of the service changes those that it writes. -/
theorem OracleEndpoint.reads_overrides (ws : Overrides EndpointSetting) :
    Reads ofJson ws.toJson (ws.apply EndpointSetting.set default) := by
  have hurl := Overrides.gives EndpointSetting.sets_baseUrl ws default
  have htoken := Overrides.gives EndpointSetting.sets_token ws default
  have hseconds := Overrides.gives EndpointSetting.sets_timeoutSecs ws default
  refine ws.reads_toJson (.seq (.seq (.map mk hurl) htoken) hseconds) ?_ ?_ ?_
  · intro s
    cases s <;> simp [Setting.key]
  · simp
  · simp [Json.depthUnder_le]

/-! ## Limits of reductions -/

/-- A limit of reductions as a file writes it; `none` is written as `null`. -/
inductive LimitSetting where
  | maxCommits (limit : Option UInt64)
  | maxOracleCalls (limit : Option UInt64)
  | timeBudgetMs (limit : Option UInt64)

namespace LimitSetting

instance : Setting LimitSetting where
  key
    | maxCommits _ => "max_commits"
    | maxOracleCalls _ => "max_oracle_calls"
    | timeBudgetMs _ => "time_budget_ms"
  value
    | maxCommits limit | maxOracleCalls limit | timeBudgetMs limit =>
      ReductionBudget.wordToJson limit

/-- Puts the limit in place of the old one. -/
def set : LimitSetting → ReductionBudget → ReductionBudget
  | maxCommits limit, b => { b with maxCommits := limit }
  | maxOracleCalls limit, b => { b with maxOracleCalls := limit }
  | timeBudgetMs limit, b => { b with timeBudgetMs := limit }

/-- A limit is read from its encoding, which is null where there is none. -/
theorem reads_wordToJson (limit : Option UInt64) :
    Reads (Json.nullable Json.uint64) (ReductionBudget.wordToJson limit) limit :=
  Json.reads_orNull nofun fun limit _ => Json.reads_uint64 limit

/-- The limit on commits hangs on the setting that writes it. -/
theorem sets_maxCommits :
    Sets "max_commits" (Json.nullable Json.uint64) set ReductionBudget.maxCommits := by
  intro s b
  cases s with
  | maxCommits limit => exact .inl ⟨rfl, reads_wordToJson limit⟩
  | maxOracleCalls | timeBudgetMs => exact .inr ⟨by simp [Setting.key], rfl⟩

/-- The limit on questions hangs on the setting that writes it. -/
theorem sets_maxOracleCalls :
    Sets "max_oracle_calls" (Json.nullable Json.uint64) set ReductionBudget.maxOracleCalls := by
  intro s b
  cases s with
  | maxOracleCalls limit => exact .inl ⟨rfl, reads_wordToJson limit⟩
  | maxCommits | timeBudgetMs => exact .inr ⟨by simp [Setting.key], rfl⟩

/-- The limit on time hangs on the setting that writes it. -/
theorem sets_timeBudgetMs :
    Sets "time_budget_ms" (Json.nullable Json.uint64) set ReductionBudget.timeBudgetMs := by
  intro s b
  cases s with
  | timeBudgetMs limit => exact .inl ⟨rfl, reads_wordToJson limit⟩
  | maxCommits | maxOracleCalls => exact .inr ⟨by simp [Setting.key], rfl⟩

/-- The limits have scalar values. -/
theorem depth_value (s : LimitSetting) : (Setting.value s).depth ≤ 0 := by
  rcases s with (_ | limit) | (_ | limit) | (_ | limit) <;> exact le_rfl

/-- The values of the limits have no integer beyond a word. -/
theorem legible_value (s : LimitSetting) : (Setting.value s).Legible := by
  rcases s with (_ | limit) | (_ | limit) | (_ | limit) <;>
    first | trivial | exact Json.legible_uint64 limit

/-- If all limits are written, those before do not matter. -/
theorem apply_eq_of_complete (ws : Overrides LimitSetting) (h : ws.Complete)
    (b b' : ReductionBudget) : ws.apply set b = ws.apply set b' := by
  have hcommits := Overrides.get_apply_congr sets_maxCommits ws (h (maxCommits none)) b b'
  have hcalls := Overrides.get_apply_congr sets_maxOracleCalls ws (h (maxOracleCalls none)) b b'
  have htime := Overrides.get_apply_congr sets_timeBudgetMs ws (h (timeBudgetMs none)) b b'
  cases hb : ws.apply set b
  cases hb' : ws.apply set b'
  rw [hb, hb'] at hcommits hcalls htime
  cases hcommits
  cases hcalls
  cases htime
  rfl

end LimitSetting

/-- An object with limits sets those that it writes, and the other ones are off. -/
theorem ReductionBudget.reads_overrides (ws : Overrides LimitSetting) :
    Reads ofJson ws.toJson (ws.apply LimitSetting.set .unlimited) := by
  have hcommits := Overrides.gives LimitSetting.sets_maxCommits ws .unlimited
  have hcalls := Overrides.gives LimitSetting.sets_maxOracleCalls ws .unlimited
  have htime := Overrides.gives LimitSetting.sets_timeBudgetMs ws .unlimited
  refine ws.reads_toJson (.seq (.seq (.map mk (Json.Fields.gives_optional hcommits))
    (Json.Fields.gives_optional hcalls)) (Json.Fields.gives_optional htime)) ?_ ?_ ?_
  · intro s
    cases s <;> simp [Setting.key]
  · simp
  · simp [Json.depthUnder_le]

/-! ## Settings of the pipeline -/

/-- A setting of the pipeline as a file writes it. -/
inductive PipelineSetting where
  | outputDir (path : String)
  | language (name : String)
  | oracle (settings : Overrides EndpointSetting)
  | jobLimit (pairs : UInt64)
  | workers (number : UInt64)
  | queueCapacity (pairs : UInt64)
  /-- The texts may repeat, and their order does not matter. -/
  | ignoreStrings (texts : List String)
  | variantsOnly (only : Bool)
  | mode (m : WorkerMode)
  | budget (limits : Overrides LimitSetting)

namespace PipelineSetting

instance : Setting PipelineSetting where
  key
    | outputDir _ => "output_dir"
    | language _ => "language"
    | oracle _ => "oracle"
    | jobLimit _ => "job_limit"
    | workers _ => "workers"
    | queueCapacity _ => "queue_capacity"
    | ignoreStrings _ => "ignore_strings"
    | variantsOnly _ => "variants_only"
    | mode _ => "mode"
    | budget _ => "budget"
  value
    | outputDir text | language text => .str text
    | oracle settings => settings.toJson
    | jobLimit n | workers n | queueCapacity n => .int n.toNat
    | ignoreStrings texts => .arr (texts.map .str)
    | variantsOnly only => .bool only
    | mode m => m.toJson
    | budget limits => limits.toJson

/-- Puts the setting in place of the old one. The settings of the service that are not written are
the default ones, and the limits that are not written are those of `limits`. -/
def set (limits : ReductionBudget) : PipelineSetting → PipelineConfig → PipelineConfig
  | outputDir path, c => { c with outputDir := path }
  | language name, c => { c with language := name }
  | oracle settings, c => { c with oracle := settings.apply EndpointSetting.set .default }
  | jobLimit pairs, c => { c with jobLimit := pairs }
  | workers number, c => { c with workers := number }
  | queueCapacity pairs, c => { c with queueCapacity := pairs }
  | ignoreStrings texts, c => { c with ignoreStrings := .ofList texts }
  | variantsOnly only, c => { c with variantsOnly := only }
  | mode m, c => { c with mode := m }
  | budget written, c => { c with budget := written.apply LimitSetting.set limits }

section
variable {limits : ReductionBudget}

/-- The directory for the files hangs on the setting that writes it. -/
theorem sets_outputDir : Sets "output_dir" Json.string (set limits) PipelineConfig.outputDir := by
  intro s c
  cases s with
  | outputDir path => exact .inl ⟨rfl, Json.reads_string path⟩
  | _ => exact .inr ⟨by simp [Setting.key], rfl⟩

/-- The language of the programs hangs on the setting that writes it. -/
theorem sets_language : Sets "language" Json.string (set limits) PipelineConfig.language := by
  intro s c
  cases s with
  | language name => exact .inl ⟨rfl, Json.reads_string name⟩
  | _ => exact .inr ⟨by simp [Setting.key], rfl⟩

/-- All settings of the service hang on the one setting that writes some of them, and those that it
does not write stay as they are. -/
theorem sets_oracle : Sets "oracle" OracleEndpoint.ofJson (set limits) PipelineConfig.oracle := by
  intro s c
  cases s with
  | oracle settings => exact .inl ⟨rfl, OracleEndpoint.reads_overrides settings⟩
  | _ => exact .inr ⟨by simp [Setting.key], rfl⟩

/-- The number of pairs to take hangs on the setting that writes it. -/
theorem sets_jobLimit : Sets "job_limit" Json.uint64 (set limits) PipelineConfig.jobLimit := by
  intro s c
  cases s with
  | jobLimit pairs => exact .inl ⟨rfl, Json.reads_uint64 pairs⟩
  | _ => exact .inr ⟨by simp [Setting.key], rfl⟩

/-- The number of workers hangs on the setting that writes it. -/
theorem sets_workers : Sets "workers" Json.uint64 (set limits) PipelineConfig.workers := by
  intro s c
  cases s with
  | workers number => exact .inl ⟨rfl, Json.reads_uint64 number⟩
  | _ => exact .inr ⟨by simp [Setting.key], rfl⟩

/-- The capacity of the queue hangs on the setting that writes it. -/
theorem sets_queueCapacity :
    Sets "queue_capacity" Json.uint64 (set limits) PipelineConfig.queueCapacity := by
  intro s c
  cases s with
  | queueCapacity pairs => exact .inl ⟨rfl, Json.reads_uint64 pairs⟩
  | _ => exact .inr ⟨by simp [Setting.key], rfl⟩

/-- The strings that excuse a crash hang on the setting that writes them. -/
theorem sets_ignoreStrings :
    Sets "ignore_strings" wordsOfJson (set limits) PipelineConfig.ignoreStrings := by
  intro s c
  cases s with
  | ignoreStrings texts =>
    have hlist : Reads (Json.list Json.string) (.arr (texts.map .str)) texts :=
      Json.reads_list_map texts fun text _ => Json.reads_string text
    exact .inl ⟨rfl, hlist.map Text.WordSet.ofList⟩
  | _ => exact .inr ⟨by simp [Setting.key], rfl⟩

/-- Whether reference programs are left alone hangs on the setting that writes it. -/
theorem sets_variantsOnly :
    Sets "variants_only" Json.boolean (set limits) PipelineConfig.variantsOnly := by
  intro s c
  cases s with
  | variantsOnly only => exact .inl ⟨rfl, Json.reads_boolean only⟩
  | _ => exact .inr ⟨by simp [Setting.key], rfl⟩

/-- What a worker does with a fault hangs on the setting that writes it. -/
theorem sets_mode : Sets "mode" WorkerMode.ofJson (set limits) PipelineConfig.mode := by
  intro s c
  cases s with
  | mode m =>
    have hlookup : (WorkerMode.all.map fun m => (m.name, m)).lookup m.name = some m := by
      cases m <;> rfl
    exact .inl ⟨rfl, Json.reads_choice hlookup⟩
  | _ => exact .inr ⟨by simp [Setting.key], rfl⟩

/-- All limits hang on the one setting that writes some of them, and those that it does not write
are no limits. -/
theorem sets_budget :
    Sets "budget" ReductionBudget.ofJson (set .unlimited) PipelineConfig.budget := by
  intro s c
  cases s with
  | budget limits => exact .inl ⟨rfl, ReductionBudget.reads_overrides limits⟩
  | _ => exact .inr ⟨by simp [Setting.key], rfl⟩

end

/-- If no limit is left out of a budget, those before do not matter. -/
theorem apply_eq_of_complete (ws : Overrides PipelineSetting)
    (h : ∀ written, budget written ∈ ws.toList → written.Complete) (b b' : ReductionBudget)
    (c : PipelineConfig) : ws.apply (set b) c = ws.apply (set b') c := by
  refine List.foldr_ext _ _ c fun s hs c => ?_
  cases s with
  | budget written =>
    rw [set, set, LimitSetting.apply_eq_of_complete written (h written hs) b b']
  | _ => rfl

/-- The values of the settings nest one level at most. -/
theorem depth_value (s : PipelineSetting) : (Setting.value s).depth ≤ 1 := by
  cases s with
  | oracle settings => exact settings.depth_toJson_le EndpointSetting.depth_value
  | budget limits => exact limits.depth_toJson_le LimitSetting.depth_value
  | ignoreStrings texts =>
    refine Nat.succ_le_succ (Json.depthItems_le fun v hv => ?_)
    obtain ⟨text, -, rfl⟩ := List.mem_map.1 hv
    exact le_rfl
  | _ => exact Nat.zero_le 1

/-- The values of the settings have no integer beyond a word. -/
theorem legible_value (s : PipelineSetting) : (Setting.value s).Legible := by
  cases s with
  | oracle settings => exact settings.legible_toJson EndpointSetting.legible_value
  | budget limits => exact limits.legible_toJson LimitSetting.legible_value
  | ignoreStrings texts => exact Json.legibleItems_map fun _ _ => trivial
  | jobLimit n | workers n | queueCapacity n => exact Json.legible_uint64 n
  | outputDir | language | variantsOnly | mode => trivial

end PipelineSetting

namespace PipelineConfig

/-- An object with settings of the pipeline changes those that it writes. -/
theorem reads_overrides (ws : Overrides PipelineSetting) :
    Reads ofJson ws.toJson (ws.apply (PipelineSetting.set .unlimited) default) := by
  refine ws.reads_toJson (.seq (.seq (.seq (.seq (.seq (.seq (.seq (.seq (.seq (.map mk
    (Overrides.gives PipelineSetting.sets_outputDir ws default))
    (Overrides.gives PipelineSetting.sets_language ws default))
    (Overrides.gives PipelineSetting.sets_oracle ws default))
    (Overrides.gives PipelineSetting.sets_jobLimit ws default))
    (Overrides.gives PipelineSetting.sets_workers ws default))
    (Overrides.gives PipelineSetting.sets_queueCapacity ws default))
    (Overrides.gives PipelineSetting.sets_ignoreStrings ws default))
    (Overrides.gives PipelineSetting.sets_variantsOnly ws default))
    (Overrides.gives PipelineSetting.sets_mode ws default))
    (Overrides.gives PipelineSetting.sets_budget ws default)) ?_ ?_ ?_
  · intro s
    cases s <;> simp [Setting.key, keys]
  · simp only [keys, List.forall_mem_cons, le_max_iff, le_refl, true_or, or_true, true_and]
    exact List.forall_mem_nil _
  · simp only [max_le_iff, Json.depthUnder_le, and_self]

/-- A file with some settings gives the defaults with these settings in their places, where the
limits that a written budget leaves out are off. So if it leaves out none, the result is the
defaults with the settings in their places, down to each limit. -/
theorem decode_overrides (ws : Overrides PipelineSetting) {text : String}
    (h : ws.toJson.Written text.toList) :
    Json.decode ofJson text = .ok (ws.apply (PipelineSetting.set .unlimited) default) ∧
      ((∀ written, .budget written ∈ ws.toList → written.Complete) →
        Json.decode ofJson text = .ok (ws.apply (PipelineSetting.set default.budget) default)) := by
  have hdepth : ws.toJson.depth ≤ Json.nestingLimit :=
    (ws.depth_toJson_le PipelineSetting.depth_value).trans (by decide)
  have hlegible : ws.toJson.Legible := ws.legible_toJson PipelineSetting.legible_value
  have hdecode : Json.decode ofJson text =
      .ok (ws.apply (PipelineSetting.set .unlimited) default) := by
    rw [(reads_overrides ws).decode_written hlegible h, if_pos hdepth]
  refine ⟨hdecode, fun hcomplete => ?_⟩
  rw [hdecode, PipelineSetting.apply_eq_of_complete ws hcomplete .unlimited default.budget]

/-- Some settings at both levels, and all limits. -/
theorem decode_overrides_some :
    let limits : Overrides LimitSetting :=
      ⟨[.timeBudgetMs none, .maxCommits (some 5), .maxOracleCalls (some 7)], by decide⟩
    let ws : Overrides PipelineSetting :=
      ⟨[.jobLimit 3, .budget limits, .oracle ⟨[.timeoutSecs 5], by decide⟩], by decide⟩
    let config : PipelineConfig :=
      { default with
        jobLimit := 3
        oracle := { OracleEndpoint.default with timeoutSecs := 5 }
        budget := ⟨some 5, some 7, none⟩ }
    ws.toJson.Written ws.toJson.compact.toList ∧ limits.Complete ∧
      Json.decode ofJson ws.toJson.compact = .ok config := by
  intro limits ws config
  have hlimits : limits.Complete := by
    intro s
    cases s <;> simp [limits, Setting.key]
  have hwritten := Json.written_compact ws.toJson
  refine ⟨hwritten, hlimits, (decode_overrides ws hwritten).2 fun written hmem => ?_⟩
  have heq : written = limits := by simpa [ws] using hmem
  exact heq ▸ hlimits

/-- A budget that sets one limit does not leave the other ones at their defaults. -/
theorem not_decode_overrides :
    ¬ ∀ (ws : Overrides PipelineSetting) (text : String), ws.toJson.Written text.toList →
      Json.decode ofJson text = .ok (ws.apply (PipelineSetting.set default.budget) default) := by
  intro h
  let ws : Overrides PipelineSetting := ⟨[.budget ⟨[.maxCommits (some 5)], by decide⟩], by decide⟩
  have hreads : Json.decode ofJson ws.toJson.compact =
      .ok { default with budget := ⟨some 5, none, none⟩ } :=
    (reads_overrides ws).decode_written (ws.legible_toJson PipelineSetting.legible_value)
      (Json.written_compact _)
  have heq := Except.ok.inj ((h ws _ (Json.written_compact _)).symm.trans hreads)
  exact absurd (congrArg (·.budget.maxOracleCalls) heq) (by decide)

end PipelineConfig

end ShaderShrink

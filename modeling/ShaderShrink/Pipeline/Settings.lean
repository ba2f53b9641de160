import ShaderShrink.Service
import ShaderShrink.Text.Blank
import ShaderShrink.Pipeline.Report

/-!
# Configuration of the pipeline

A configuration file is a JSON text in which every setting may be left out. The token of the service
may stand in the file or in an environment variable, so that it can be kept out of files, and it is
never written.
-/

namespace ShaderShrink

open Json (Decoder Failure)

/-! ## Settings -/

/-- How the service for shader execution is reached. -/
structure OracleEndpoint where
  baseUrl : String
  token : Option String
  timeoutSecs : UInt64
  deriving DecidableEq, Repr

namespace OracleEndpoint

/-- A service on this machine. -/
def default : OracleEndpoint := ⟨"http://localhost:8080", none, 60⟩

instance : Inhabited OracleEndpoint := ⟨default⟩

/-- The settings as a JSON value, without the token. -/
def toJson (o : OracleEndpoint) : Json :=
  .obj [("base_url", .str o.baseUrl), ("timeout_secs", .int o.timeoutSecs.toNat)]

/-- Decodes the settings. -/
def ofJson : Decoder OracleEndpoint := Json.record ["base_url", "token", "timeout_secs"] <|
  OracleEndpoint.mk <$> Json.withDefault "base_url" default.baseUrl Json.string
    <*> Json.omissible "token" Json.string
    <*> Json.withDefault "timeout_secs" default.timeoutSecs Json.uint64

end OracleEndpoint

/-- The settings of the pipeline. -/
structure PipelineConfig where
  /-- The directory in which the pipeline files what it finds. -/
  outputDir : String
  language : String
  oracle : OracleEndpoint
  /-- The number of pairs after which a worker stops. -/
  jobLimit : UInt64
  workers : UInt64
  queueCapacity : UInt64
  /-- Texts in the log of a crash that show a known problem. -/
  ignoreStrings : Text.WordSet
  /-- Whether reference programs are left alone. -/
  variantsOnly : Bool
  mode : WorkerMode
  /-- The limits of each reduction. -/
  budget : ReductionBudget
  deriving DecidableEq

namespace PipelineConfig

/-- The settings where nothing else is said. -/
def default : PipelineConfig where
  outputDir := "out"
  language := "glsl-310es"
  oracle := .default
  jobLimit := 100
  workers := 1
  queueCapacity := 16
  ignoreStrings := .empty
  variantsOnly := false
  mode := .runOnly
  budget := ⟨none, some 2000, some 1800000⟩

instance : Inhabited PipelineConfig := ⟨default⟩

/-- The settings as a JSON value, without the token. -/
def toJson (c : PipelineConfig) : Json :=
  .obj [("output_dir", .str c.outputDir), ("language", .str c.language),
    ("oracle", c.oracle.toJson), ("job_limit", .int c.jobLimit.toNat),
    ("workers", .int c.workers.toNat), ("queue_capacity", .int c.queueCapacity.toNat),
    ("ignore_strings", wordsToJson c.ignoreStrings), ("variants_only", .bool c.variantsOnly),
    ("mode", c.mode.toJson), ("budget", c.budget.toJson)]

/-- The keys of the settings. -/
def keys : List String :=
  ["output_dir", "language", "oracle", "job_limit", "workers", "queue_capacity", "ignore_strings",
    "variants_only", "mode", "budget"]

/-- Decodes the settings. -/
def ofJson : Decoder PipelineConfig := Json.record keys <|
  PipelineConfig.mk <$> Json.withDefault "output_dir" default.outputDir Json.string
    <*> Json.withDefault "language" default.language Json.string
    <*> Json.withDefault "oracle" default.oracle OracleEndpoint.ofJson
    <*> Json.withDefault "job_limit" default.jobLimit Json.uint64
    <*> Json.withDefault "workers" default.workers Json.uint64
    <*> Json.withDefault "queue_capacity" default.queueCapacity Json.uint64
    <*> Json.withDefault "ignore_strings" default.ignoreStrings wordsOfJson
    <*> Json.withDefault "variants_only" default.variantsOnly Json.boolean
    <*> Json.withDefault "mode" default.mode WorkerMode.ofJson
    <*> Json.withDefault "budget" default.budget ReductionBudget.ofJson

end PipelineConfig

/-! ## Errors -/

/-- What is wrong with settings. -/
inductive ConfigProblem where
  | noWorkers
  | noQueue
  | blankLanguage
  | noTimeout
  | emptyIgnoreString
  deriving DecidableEq, Repr

/-- What is said about settings that are wrong. -/
def ConfigProblem.text : ConfigProblem → String
  | .noWorkers => "workers must be at least 1"
  | .noQueue => "queue_capacity must be at least 1"
  | .blankLanguage => "language must not be empty"
  | .noTimeout => "oracle.timeout_secs must be at least 1"
  | .emptyIgnoreString => "ignore_strings must not contain empty strings"

/-- Why there is no usable configuration. -/
inductive ConfigError where
  | read (path : String) (cause : DiskError)
  | parse (path : String) (cause : Failure)
  | invalid (problem : ConfigProblem)
  | missingToken
  /-- The service cannot be addressed; `text` says why. -/
  | client (text : String)
  deriving DecidableEq, Repr

namespace ConfigError

/-- The name of a kind of errors. -/
def code : ConfigError → String
  | .read .. => "config_read"
  | .parse .. => "config_parse"
  | .invalid _ => "config_invalid"
  | .missingToken => "config_missing_token"
  | .client _ => "config_client"

/-- What is said about wrong settings, given what is wrong. -/
def invalidText (problem : String) : String := "invalid config: " ++ problem

/-- What is said about a file that cannot be read. -/
def readText (path : String) : String := "failed to read config " ++ path

/-- What is said about a file that is no configuration. -/
def parseText (path : String) : String := "failed to parse config " ++ path

/-- What is said about an error. -/
def message : ConfigError → String
  | .read path cause => readText path ++ ": " ++ cause.message
  | .parse path cause => parseText path ++ ": " ++ cause.category
  | .invalid problem => invalidText problem.text
  | .missingToken => "no oracle token configured and FRANKEN_ORACLE_TOKEN is unset"
  | .client text => "oracle client could not be built: " ++ text

end ConfigError

/-! ## Use -/

namespace PipelineConfig

/-- Finds what is wrong with settings, the first problem if there are several. -/
def problem? (c : PipelineConfig) : Option ConfigProblem :=
  if c.workers = 0 then some .noWorkers
  else if c.queueCapacity = 0 then some .noQueue
  else if Text.isBlankText c.language then some .blankLanguage
  else if c.oracle.timeoutSecs = 0 then some .noTimeout
  else if c.ignoreStrings.toList.any String.isEmpty then some .emptyIgnoreString
  else none

/-- Gives the settings back if they are usable. -/
def validate (c : PipelineConfig) : Except ConfigError PipelineConfig :=
  match c.problem? with
  | some problem => .error (.invalid problem)
  | none => .ok c

/-- Reads a configuration file. -/
def load {σ : Type} [Disk σ] (path : String) (s : σ) : Except ConfigError PipelineConfig :=
  match Disk.read path s with
  | .error cause => .error (.read path cause)
  | .ok text =>
    match Json.decode ofJson text with
    | .error cause => .error (.parse path cause)
    | .ok config => config.validate

/-- The name of the environment variable that holds the token. -/
def tokenVariable : String := "FRANKEN_ORACLE_TOKEN"

/-- The token: the one in the settings, or else the one in the environment, which is only asked for
in that case. Empty tokens do not count. -/
def findToken {m : Type → Type} [Monad m] (c : PipelineConfig)
    (lookup : String → m (Option String)) : m (Except ConfigError String) :=
  match c.oracle.token.filter (!·.isEmpty) with
  | some token => pure (.ok token)
  | none => do
    match (← lookup tokenVariable).filter (!·.isEmpty) with
    | some token => return .ok token
    | none => return .error .missingToken

/-- The settings of a worker of the pipeline. -/
def forWorkers (c : PipelineConfig) (traceId : String) : WorkerConfig where
  limit := c.jobLimit
  mode := c.mode
  variantsOnly := c.variantsOnly
  ignoreStrings := c.ignoreStrings
  budget := c.budget
  traceId := traceId

/-- The client of the service, with the token from the settings or the environment. -/
def makeClient (c : PipelineConfig) (lookup : String → Option String) :
    Except ConfigError RemoteClient :=
  match c.findToken (m := Id) lookup with
  | .error e => .error e
  | .ok token =>
    match RemoteClient.create c.oracle.baseUrl token c.language with
    | .ok client => .ok client
    | .error e => .error (.client e.message)

end PipelineConfig

end ShaderShrink

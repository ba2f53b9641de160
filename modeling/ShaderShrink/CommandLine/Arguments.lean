import ShaderShrink.Pipeline.Settings
import ShaderShrink.Text.Decimal

/-!
# Arguments of the program

The first argument names a command, and all others are options. `Options.parse` reads the options
from left to right and stops at the first one that is wrong; an option that is given twice has its
last value. Then the configuration is read, the options change it, and only a usable configuration
gets as far as the question what the command needs (`Invocation.ofArguments`).
-/

namespace ShaderShrink

/-! ## Errors -/

/-- Why arguments do not say what to do. -/
inductive ArgumentError where
  /-- The user asks how to use the program, or gives no command. -/
  | usage
  | missingValue (option : String)
  | unknownStatus (text : String)
  | notANumber (option text : String)
  | unknownArgument (text : String)
  | unknownCommand (text : String)
  /-- The command needs an option that is not given. -/
  | missingOption (command option : String)
  | config (cause : ConfigError)
  deriving DecidableEq, Repr

namespace ArgumentError

/-- How to use the program. -/
def usageText : String :=
  "\n".intercalate [
    "usage:",
    "  franken_reduce reduce --job <path> --status <STATUS> [--log-signature <text>]",
    "                        [--config <path>] [--output <dir>] [--max-commits <n>]",
    "                        [--max-oracle-calls <n>] [--time-budget-ms <n>] " ++
      "[--skip-initial-check]",
    "  franken_reduce pipeline --pairs <jsonl> [--config <path>] [--output <dir>]",
    "                          [--workers <n>] [--limit <n>] [--variants-only] [--reduce]"]

/-- What is said about arguments that do not say what to do. -/
def message : ArgumentError → String
  | .usage => usageText
  | .missingValue option => option ++ " requires a value"
  | .unknownStatus text => JobStatus.unknownMessage text
  | .notANumber option text => option ++ " expects a number, got `" ++ text ++ "`"
  | .unknownArgument text => "unknown argument: " ++ text ++ "\n" ++ usageText
  | .unknownCommand text => "unknown command: " ++ text ++ "\n" ++ usageText
  | .missingOption command option => command ++ " requires " ++ option
  | .config cause => cause.message

end ArgumentError

/-! ## Options -/

/-- What the options say. -/
structure Options where
  configPath : Option String := none
  outputDir : Option String := none
  jobPath : Option String := none
  status : Option JobStatus := none
  logSignature : Option String := none
  checkInitial : Bool := true
  pairsPath : Option String := none
  maxCommits : Option UInt64 := none
  maxOracleCalls : Option UInt64 := none
  timeBudgetMs : Option UInt64 := none
  workers : Option UInt64 := none
  limit : Option UInt64 := none
  variantsOnly : Bool := false
  reduceFaults : Bool := false
  deriving DecidableEq, Repr, Inhabited

/-- What an option does. -/
inductive OptionEffect where
  /-- It asks how to use the program. -/
  | help
  /-- It stands alone. -/
  | switch (set : Options → Options)
  /-- It is followed by a value. -/
  | valued (set : String → Options → Except ArgumentError Options)

namespace Options

/-- An option that is followed by any text. -/
def textual (set : String → Options → Options) : OptionEffect :=
  .valued fun text o => .ok (set text o)

/-- An option that is followed by a number of at most 64 bits. -/
def numeric (name : String) (set : UInt64 → Options → Options) : OptionEffect :=
  .valued fun text o =>
    match Text.readNatBelow? Json.word64 text with
    | some n => .ok (set (.ofNat n) o)
    | none => .error (.notANumber name text)

/-- The option that is followed by the name of a status. -/
def statusOption : OptionEffect :=
  .valued fun text o =>
    match JobStatus.ofName? text with
    | some status => .ok { o with status := some status }
    | none => .error (.unknownStatus text)

/-- The options and what they do. -/
def effects : List (String × OptionEffect) :=
  [("--config", textual fun path o => { o with configPath := some path }),
    ("--output", textual fun dir o => { o with outputDir := some dir }),
    ("--job", textual fun path o => { o with jobPath := some path }),
    ("--status", statusOption),
    ("--log-signature", textual fun text o => { o with logSignature := some text }),
    ("--skip-initial-check", .switch fun o => { o with checkInitial := false }),
    ("--pairs", textual fun path o => { o with pairsPath := some path }),
    ("--max-commits", numeric "--max-commits" fun n o => { o with maxCommits := some n }),
    ("--max-oracle-calls",
      numeric "--max-oracle-calls" fun n o => { o with maxOracleCalls := some n }),
    ("--time-budget-ms", numeric "--time-budget-ms" fun n o => { o with timeBudgetMs := some n }),
    ("--workers", numeric "--workers" fun n o => { o with workers := some n }),
    ("--limit", numeric "--limit" fun n o => { o with limit := some n }),
    ("--variants-only", .switch fun o => { o with variantsOnly := true }),
    ("--reduce", .switch fun o => { o with reduceFaults := true }),
    ("--help", .help),
    ("-h", .help)]

/-- Reads options, which change what the options in front of them say. -/
def parse : List String → Options → Except ArgumentError Options
  | [], o => .ok o
  | arg :: rest, o =>
    match effects.lookup arg with
    | none => .error (.unknownArgument arg)
    | some .help => .error .usage
    | some (.switch set) => parse rest (set o)
    | some (.valued set) =>
      match rest with
      | [] => .error (.missingValue arg)
      | text :: rest =>
        match set text o with
        | .error e => .error e
        | .ok o => parse rest o

/-- The limits of reductions, where options win over the configuration. -/
def changeBudget (o : Options) (b : ReductionBudget) : ReductionBudget where
  maxCommits := o.maxCommits <|> b.maxCommits
  maxOracleCalls := o.maxOracleCalls <|> b.maxOracleCalls
  timeBudgetMs := o.timeBudgetMs <|> b.timeBudgetMs

/-- The configuration, where options win over the file. -/
def change (o : Options) (c : PipelineConfig) : PipelineConfig :=
  { c with
    outputDir := o.outputDir.getD c.outputDir
    budget := o.changeBudget c.budget
    workers := o.workers.getD c.workers
    jobLimit := o.limit.getD c.jobLimit
    variantsOnly := c.variantsOnly || o.variantsOnly
    mode := if o.reduceFaults then .reduce else c.mode }

/-- The configuration that the options ask for. -/
def loadConfig {σ : Type} [Disk σ] (o : Options) (s : σ) : Except ConfigError PipelineConfig := do
  let config ← match o.configPath with
    | some path => PipelineConfig.load path s
    | none => .ok .default
  (o.change config).validate

end Options

/-! ## Commands -/

/-- What the program is to do. -/
inductive Command where
  /-- Minimizes the job in a file. -/
  | reduce (jobPath : String) (status : JobStatus) (logSignature : Option String)
      (checkInitial : Bool)
  /-- Works on the pairs in a file. -/
  | pipeline (pairsPath : String)
  deriving DecidableEq, Repr

/-- The value of an option that a command needs. -/
def needed {α : Type} (command option : String) : Option α → Except ArgumentError α
  | some value => .ok value
  | none => .error (.missingOption command option)

/-- The command with a name, with what the options say. -/
def Command.ofName (name : String) (o : Options) : Except ArgumentError Command := do
  match name with
  | "reduce" => do
    let jobPath ← needed "reduce" "--job" o.jobPath
    let status ← needed "reduce" "--status" o.status
    return .reduce jobPath status o.logSignature o.checkInitial
  | "pipeline" => return .pipeline (← needed "pipeline" "--pairs" o.pairsPath)
  | "--help" | "-h" => throw .usage
  | other => throw (.unknownCommand other)

/-- A command with its configuration. -/
structure Invocation where
  command : Command
  config : PipelineConfig
  deriving DecidableEq

/-- What the arguments of the program ask for. -/
def Invocation.ofArguments {σ : Type} [Disk σ] (arguments : List String) (s : σ) :
    Except ArgumentError Invocation :=
  match arguments with
  | [] => .error .usage
  | name :: rest => do
    let options ← Options.parse rest {}
    let config ← (options.loadConfig s).mapError .config
    let command ← Command.ofName name options
    return { command, config }

end ShaderShrink

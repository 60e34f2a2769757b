import CodeHealth.Advice.Backend
import CodeHealth.CommandLine.Grammar
import CodeHealth.Path
import CodeHealth.Project.UserSettings
import CodeHealth.Report.Format

/-!
The commands and what can be given to them. A command without a name is an analysis. Some options
that are not given are taken from the environment.
-/

namespace CodeHealth.CommandLine

/-- How a service is asked, as far as it was given. -/
structure AdviceArgs where
  backend : Option Advice.Backend
  model : Option String
  timeoutSeconds : Option Nat
  maxTokens : Option Nat
  temperature : Option Float32
  retries : Option Nat

/-- What was given to an analysis. -/
structure AnalyzeArgs where
  path : Option Path
  preset : Option String
  categories : Option (List String)
  rules : Option (List String)
  format : Option Report.Format
  output : Option Path
  workers : Option Nat
  failOn : Option Severity
  /-- Whether advice is asked for. -/
  ai : Bool
  noProgress : Bool
  advice : AdviceArgs

/-- What was given to a list of the rules. -/
structure RulesArgs where
  path : Option Path
  preset : Option String
  json : Bool

/-- What was given to start a project. -/
structure InitArgs where
  path : Option Path
  force : Bool

/-- What was given to ask about one file. -/
structure InsightsArgs where
  file : Option Path
  json : Bool
  advice : AdviceArgs

inductive Command where
  | analyze (args : AnalyzeArgs)
  | rules (args : RulesArgs)
  | init (args : InitArgs)
  | insights (file : Path) (json : Bool) (advice : AdviceArgs)

/-- The arguments of a command, and the level of the log, which every command takes. -/
structure Logged (α : Type) where
  level : Option String
  args : α

/-! ### Fields -/

/-- The value of a field that can be given once. -/
def once {β : Type} (old : Option β) (new : Option β) : Option (Option β) :=
  match old, new with
  | none, some b => some (some b)
  | _, _ => none

def onceFlag (old : Bool) : Option Bool := if old then none else some true

def path? (text : String) : Option Path := if text = "" then none else some ⟨text⟩

/-- The pieces of a text between commas, behind those that were given before. -/
def moreNames (old : Option (List String)) (text : String) : List String :=
  old.getD [] ++ (text.toList.splitOn ',').map String.ofList

/-- The format of a name that can be given. -/
def format? : String → Option Report.Format
  | "table" => some .table
  | "text" => some .table
  | "json" => some .json
  | "markdown" => some .markdown
  | "md" => some .markdown
  | _ => none

def maxWorkers : Nat := 64

def logLevels : List String := ["error", "warn", "info", "debug", "trace"]

/-! ### Options -/

namespace AdviceArgs

def empty : AdviceArgs := ⟨none, none, none, none, none, none⟩

/-- The options that settle how a service is asked. -/
def long : String → Option (Action AdviceArgs)
  | "ai-backend" => some (.value fun v a =>
    (once a.backend (Advice.Backend.ofName? v)).map fun b => { a with backend := b })
  | "ai-model" => some (.value fun v a =>
    (once a.model (some v)).map fun m => { a with model := m })
  | "ai-timeout" => some (.value fun v a =>
    (once a.timeoutSeconds (natural? Word.bound64 v)).map fun n => { a with timeoutSeconds := n })
  | "ai-max-tokens" => some (.value fun v a =>
    (once a.maxTokens (word32? v)).map fun n => { a with maxTokens := n })
  | "ai-temperature" => some (.value fun v a =>
    (once a.temperature (single? v)).map fun t => { a with temperature := t })
  | "ai-retries" => some (.value fun v a =>
    (once a.retries (word32? v)).map fun n => { a with retries := n })
  | _ => none

/-- The arguments with what the environment says. A name in it has to be a service. -/
def withEnvironment (env : Environment) (a : AdviceArgs) : Option AdviceArgs :=
  match a.backend, env "PULSECHECK_AI_BACKEND" with
  | none, some name => (Advice.Backend.ofName? name).map fun b => { a with backend := some b }
  | _, _ => some a

end AdviceArgs

def Action.lift {α β : Type} (get : β → α) (put : α → β → β) : Action α → Action β
  | .flag set => .flag fun b => (set (get b)).map (put · b)
  | .value set => .value fun v b => (set v (get b)).map (put · b)
  | .stop refusal => .stop refusal

/-- The grammar of a command that takes the level of the log and tells about itself. -/
def Grammar.logged {α : Type} (g : Grammar α) : Grammar (Logged α) where
  long
    | "log-level" => some (.value fun v l =>
      (once l.level (some v |>.filter logLevels.contains)).map fun v => { l with level := v })
    | "help" => some (.stop .help)
    | name => (g.long name).map (.lift (·.args) fun a l => { l with args := a })
  short
    | 'h' => some (.stop .help)
    | c => (g.short c).map (.lift (·.args) fun a l => { l with args := a })
  positional text l := (g.positional text l.args).map fun a => { l with args := a }
  subcommands := g.subcommands

namespace AnalyzeArgs

def empty : AnalyzeArgs :=
  ⟨none, none, none, none, none, none, none, none, false, false, .empty⟩

def setFormat (v : String) (a : AnalyzeArgs) : Option AnalyzeArgs :=
  (once a.format (format? v)).map fun f => { a with format := f }

/-- Gives the file for the report. -/
def setOutput (v : String) (a : AnalyzeArgs) : Option AnalyzeArgs :=
  (once a.output (path? v)).map fun p => { a with output := p }

def long : String → Option (Action AnalyzeArgs)
  | "preset" => some (.value fun v a =>
    (once a.preset (some v)).map fun p => { a with preset := p })
  | "categories" => some (.value fun v a =>
    some { a with categories := some (moreNames a.categories v) })
  | "rules" => some (.value fun v a => some { a with rules := some (moreNames a.rules v) })
  | "format" => some (.value setFormat)
  | "output" => some (.value setOutput)
  | "workers" => some (.value fun v a =>
    (once a.workers (natural? (maxWorkers + 1) v)).map fun n => { a with workers := n })
  | "fail-on" => some (.value fun v a =>
    (once a.failOn (Severity.ofName? v)).map fun s => { a with failOn := s })
  | "ai" => some (.flag fun a => (onceFlag a.ai).map fun b => { a with ai := b })
  | "no-progress" => some (.flag fun a =>
    (onceFlag a.noProgress).map fun b => { a with noProgress := b })
  | name => (AdviceArgs.long name).map (.lift (·.advice) fun d a => { a with advice := d })

def grammar : Grammar AnalyzeArgs where
  long := long
  short
    | 'f' => some (.value setFormat)
    | 'o' => some (.value setOutput)
    | _ => none
  positional text a := (once a.path (path? text)).map fun p => { a with path := p }
  subcommands := []

/-- The arguments with what the environment says. -/
def withEnvironment (env : Environment) (a : AnalyzeArgs) : Option AnalyzeArgs :=
  (a.advice.withEnvironment env).map fun advice =>
    { a with preset := a.preset.or (env "PULSECHECK_PRESET"), advice := advice }

end AnalyzeArgs

def RulesArgs.grammar : Grammar RulesArgs where
  long
    | "preset" => some (.value fun v a =>
      (once a.preset (some v)).map fun p => { a with preset := p })
    | "json" => some (.flag fun a => (onceFlag a.json).map fun b => { a with json := b })
    | _ => none
  short _ := none
  positional text a := (once a.path (path? text)).map fun p => { a with path := p }
  subcommands := []

def InitArgs.grammar : Grammar InitArgs where
  long
    | "force" => some (.flag fun a => (onceFlag a.force).map fun b => { a with force := b })
    | _ => none
  short _ := none
  positional text a := (once a.path (path? text)).map fun p => { a with path := p }
  subcommands := []

/-- The grammar of questions about a file. -/
def InsightsArgs.grammar : Grammar InsightsArgs where
  long
    | "json" => some (.flag fun a => (onceFlag a.json).map fun b => { a with json := b })
    | name => (AdviceArgs.long name).map (.lift (·.advice) fun d a => { a with advice := d })
  short _ := none
  positional text a := (once a.file (path? text)).map fun p => { a with file := p }
  subcommands := []

/-! ### Commands -/

def commandNames : List String := ["analyze", "rules", "init", "insights", "help"]

/-- The grammar of a whole command line: an analysis, or a command by name. -/
def rootGrammar : Grammar (Logged AnalyzeArgs) :=
  let g := AnalyzeArgs.grammar.logged
  { g with
    long
      | "version" => some (.stop .version)
      | name => g.long name
    short
      | 'V' => some (.stop .version)
      | c => g.short c
    subcommands := commandNames }

def readArgs {α : Type} (g : Grammar α) (start : α) (args : List String) : Except Refusal α :=
  (g.logged.read ⟨none, start⟩ args).map (·.1.args)

def helpOn (args : List String) : Refusal :=
  match args with
  | [] => .help
  | [name] => if commandNames.contains name then .help else .misuse
  | "help" :: _ => .help
  | _ => .misuse

def Command.ofName (env : Environment) (name : String) (args : List String) :
    Except Refusal Command := do
  match name with
  | "analyze" =>
    let a ← readArgs AnalyzeArgs.grammar .empty args
    pure (.analyze (← orMisuse (a.withEnvironment env)))
  | "rules" => pure (.rules (← readArgs RulesArgs.grammar ⟨none, none, false⟩ args))
  | "init" => pure (.init (← readArgs InitArgs.grammar ⟨none, false⟩ args))
  | "insights" =>
    let a ← readArgs InsightsArgs.grammar ⟨none, false, .empty⟩ args
    let advice ← orMisuse (a.advice.withEnvironment env)
    pure (.insights (← orMisuse a.file) a.json advice)
  | _ => throw (helpOn args)

/-- Reads a command line. What stands before the name of a command has to make sense, too. -/
def Command.read (env : Environment) (args : List String) : Except Refusal Command := do
  let (given, inner) ← rootGrammar.read ⟨none, .empty⟩ args
  let named ← inner.mapM fun (name, rest) => Command.ofName env name rest
  let outer ← orMisuse (given.args.withEnvironment env)
  pure (named.getD (.analyze outer))

end CodeHealth.CommandLine

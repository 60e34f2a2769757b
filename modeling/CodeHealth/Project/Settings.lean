import CodeHealth.FileSystem
import CodeHealth.Finding.Basic
import CodeHealth.Json.Reader
import CodeHealth.Rule.Codec
import CodeHealth.Toml.Reader
import CodeHealth.Word

/-!
Settings of projects. A project can keep settings in a file at its root, in TOML or in JSON; a file
that cannot be read says nothing. What a file says is a wish: names in it are not looked at here.
-/

namespace CodeHealth

open Json

/-- What a project says about advice. -/
structure AdviceWishes where
  enabled : Option Bool
  backend : Option String
  model : Option String
  timeoutSeconds : Option Nat
  maxTokens : Option Nat
  temperature : Option Float32
  retries : Option Nat

/-- What a project says about options that are not given on the command line. -/
structure CommandDefaults where
  format : Option String
  workers : Option Nat
  failOn : Option String

structure ProjectSettings where
  preset : Option String
  categories : Option (List String)
  enabledRules : Option (List String)
  rules : KeyMap Rule.RuleOverride
  advice : AdviceWishes
  defaults : CommandDefaults

namespace AdviceWishes

def empty : AdviceWishes := ⟨none, none, none, none, none, none, none⟩

def names : List String :=
  ["enabled", "backend", "model", "timeout_secs", "max_tokens", "temperature",
    "rate_limit_retries"]

def ofJson? (j : Json) : Option AdviceWishes := do
  let r ← j.record? names names
  pure {
    enabled := ← optional? asBool? r "enabled"
    backend := ← optional? asString? r "backend"
    model := ← optional? asString? r "model"
    timeoutSeconds := ← optional? (asNatBelow? Word.bound64) r "timeout_secs"
    maxTokens := ← optional? (asNatBelow? Word.bound32) r "max_tokens"
    temperature := ← optional? asFloat32? r "temperature"
    retries := ← optional? (asNatBelow? Word.bound32) r "rate_limit_retries" }

end AdviceWishes

namespace CommandDefaults

def empty : CommandDefaults := ⟨none, none, none⟩

def names : List String := ["format", "workers", "fail_on"]

def ofJson? (j : Json) : Option CommandDefaults := do
  let r ← j.record? names names
  pure {
    format := ← optional? asString? r "format"
    workers := ← optional? (asNatBelow? Word.bound64) r "workers"
    failOn := ← optional? asString? r "fail_on" }

end CommandDefaults

namespace ProjectSettings

def empty : ProjectSettings := ⟨none, none, none, .empty, .empty, .empty⟩

def names : List String :=
  ["preset", "categories", "enabled_rules", "rules", "ai", "defaults"]

def ofJson? (j : Json) : Option ProjectSettings := do
  let r ← j.record? names names
  pure {
    preset := ← optional? asString? r "preset"
    categories := ← optional? (list? asString?) r "categories"
    enabledRules := ← optional? (list? asString?) r "enabled_rules"
    rules := ← defaulted? Rule.overridesOfJson? .empty r "rules"
    advice := ← defaulted? AdviceWishes.ofJson? .empty r "ai"
    defaults := ← defaulted? CommandDefaults.ofJson? .empty r "defaults" }

/-- A record with fields of any kind, none of which has to be there. -/
def looseRecord (name : String) (fields : List String) : Json.Shape :=
  .record name (fields.map (·, false, .any))

def shape : Json.Shape :=
  .record "ProjectConfig"
    [("preset", false, .any), ("categories", false, .any), ("enabled_rules", false, .any),
      ("rules", false, .table (looseRecord "RuleOverride" ["enabled", "severity", "options"])),
      ("ai", false, looseRecord "AiSettings" AdviceWishes.names),
      ("defaults", false, looseRecord "CliDefaults" CommandDefaults.names)]

def ofToml? (text : String) : Option ProjectSettings := (Toml.read? text).bind ofJson?

def ofJsonText? (text : String) : Option ProjectSettings :=
  (Json.readShape shape text.toList).toOption.bind ofJson?

def tomlName : String := "pulsecheck.toml"

def jsonName : String := ".pulsecheckrc.json"

/-- The settings of the project with the given root. The file in TOML counts first. -/
def load (fs : FileSystem) (root : Path) : ProjectSettings :=
  let read (name : String) (decode : String → Option ProjectSettings) : Option ProjectSettings :=
    (fs.readText (root.join ⟨name⟩)).toOption.bind decode
  ((read tomlName ofToml?).or (read jsonName ofJsonText?)).getD empty

def overrides (s : ProjectSettings) : Rule.Overrides := ⟨s.enabledRules, s.categories, s.rules⟩

end ProjectSettings

end CodeHealth

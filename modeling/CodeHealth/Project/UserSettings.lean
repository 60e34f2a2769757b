import CodeHealth.Advice.Backend
import CodeHealth.FileSystem
import CodeHealth.Json.Record
import CodeHealth.Toml.Reader

/-!
Settings of users. A user can keep keys for services and a choice of service in a file of their
own; keys in the environment count more.
-/

namespace CodeHealth

open Json

/-- The variables that a program is started with. -/
abbrev Environment := String → Option String

/-- What a user says about advice. -/
structure UserSettings where
  anthropicKey : Option String
  openaiKey : Option String
  model : Option String
  backend : Option String
deriving DecidableEq, Repr

namespace UserSettings

def empty : UserSettings := ⟨none, none, none, none⟩

/-- What the table about advice stands for. -/
def ofTable? (j : Json) : Option UserSettings := do
  let r ← j.record? ["anthropic_api_key", "openai_api_key", "model", "backend"] []
  pure {
    anthropicKey := ← optional? asString? r "anthropic_api_key"
    openaiKey := ← optional? asString? r "openai_api_key"
    model := ← optional? asString? r "model"
    backend := ← optional? asString? r "backend" }

def ofJson? (j : Json) : Option UserSettings := do
  let r ← j.record? ["ai"] ["ai"]
  defaulted? ofTable? empty r "ai"

/-- The settings in the file that a path leads to. A file that cannot be read says nothing. -/
def ofFile (fs : FileSystem) (p : Path) : UserSettings :=
  ((((fs.readText p).toOption).bind Toml.read?).bind ofJson?).getD empty

/-- The file in which a user keeps settings: below the directory for settings, or else below the
home directory. -/
def path? (env : Environment) : Option Path :=
  let directory := ((env "XDG_CONFIG_HOME").filter (·.startsWith "/")).map Path.mk
  let home := ((env "HOME").filter (· ≠ "")).map fun h => (Path.mk h).join ⟨".config"⟩
  (directory.or home).map fun d => (d.join ⟨"pulsecheck"⟩).join ⟨"config.toml"⟩

/-- A variable that says something. -/
def said? (env : Environment) (name : String) : Option String :=
  (env name).filter fun v => !Text.isBlankString v

/-- The settings of the user who runs the program. -/
def load (fs : FileSystem) (env : Environment) : UserSettings :=
  let kept := ((path? env).map (ofFile fs)).getD empty
  { kept with
    anthropicKey := (said? env Advice.Backend.anthropic.keyVariable).or kept.anthropicKey
    openaiKey := (said? env Advice.Backend.openai.keyVariable).or kept.openaiKey }

/-- The service that the user chose, if it is one. -/
def chosenBackend? (s : UserSettings) : Option Advice.Backend :=
  s.backend.bind fun name => (Advice.Backend.parse name).toOption

def key? (s : UserSettings) : Advice.Backend → Option String
  | .anthropic => s.anthropicKey
  | .openai => s.openaiKey
  | .ollama => none

end UserSettings

end CodeHealth

import CodeHealth.Advice.Failure
import CodeHealth.Text.Lowercase

/-!
The services that can be asked for advice.
-/

namespace CodeHealth.Advice

inductive Backend where
  | anthropic
  | openai
  | ollama
deriving DecidableEq, Repr, Inhabited

namespace Backend

def name : Backend → String
  | .anthropic => "anthropic"
  | .openai => "openai"
  | .ollama => "ollama"

/-- The service of a name that is written exactly. -/
def ofName? : String → Option Backend
  | "anthropic" => some .anthropic
  | "openai" => some .openai
  | "ollama" => some .ollama
  | _ => none

/-- Reads a service: letter case and blanks around it do not matter, and the name of its model does
as well. The message names what is not a service. -/
def parse (text : String) : Except String Backend :=
  match Text.lower (Text.trimmed text) with
  | "anthropic" => .ok .anthropic
  | "claude" => .ok .anthropic
  | "openai" => .ok .openai
  | "gpt" => .ok .openai
  | "ollama" => .ok .ollama
  | other => .error
      ("unknown AI backend '" ++ other ++ "'. Valid backends: anthropic, openai, ollama")

/-- The variable of the environment that is set for a service. -/
def keyVariable : Backend → String
  | .anthropic => "ANTHROPIC_API_KEY"
  | .openai => "OPENAI_API_KEY"
  | .ollama => "OLLAMA_MODEL"

def signupUrl : Backend → String
  | .anthropic => "https://console.anthropic.com/settings/keys"
  | .openai => "https://platform.openai.com/api-keys"
  | .ollama => "https://ollama.ai (no key needed, just run locally)"

/-- The model that is asked if none is named. -/
def defaultModel : Backend → String
  | .anthropic => "claude-sonnet-4-20250514"
  | .openai => "gpt-4o"
  | .ollama => "llama3.1:8b"

def url : Backend → String
  | .anthropic => "https://api.anthropic.com/v1/messages"
  | .openai => "https://api.openai.com/v1/chat/completions"
  | .ollama => "http://localhost:11434/v1/chat/completions"

/-- Whether a service takes the requests of chat completions. -/
def takesChatCompletions (b : Backend) : Bool := b ≠ .anthropic

def needsKey (b : Backend) : Bool := b ≠ .ollama

/-- The key for a service: the variable of the environment unless it is blank, and else the one
that is kept. A service that wants no key has one all the same. -/
def key (b : Backend) (env kept : Option String) : Except Unavailable String :=
  if !b.needsKey then .ok "ollama"
  else match (env.filter fun k => !Text.isBlankString k).or kept with
    | some k => .ok k
    | none => .error (.missingKey b.keyVariable b.signupUrl)

end Backend

end CodeHealth.Advice

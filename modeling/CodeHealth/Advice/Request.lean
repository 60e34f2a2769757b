import CodeHealth.Advice.Backend

/-!
Requests for advice, and the settings that they are made with.
-/

namespace CodeHealth.Advice

structure Settings where
  backend : Backend
  /-- The model to ask instead of the service's own choice. -/
  model : Option String
  maxTokens : Nat
  temperature : Float32
  timeoutSeconds : Nat
  /-- How often a request is made again after the service wanted fewer. -/
  retries : Nat
deriving Inhabited

structure Request where
  prompt : String
  system : Option String
  model : String
  maxTokens : Nat
  temperature : Float32
  timeoutSeconds : Nat
deriving Inhabited

/-- Who says a message. -/
inductive Role where
  | system
  | user
deriving DecidableEq, Repr

def Role.name : Role → String
  | .system => "system"
  | .user => "user"

structure Message where
  role : Role
  content : String
deriving DecidableEq, Repr

namespace Settings

def default : Settings where
  backend := .anthropic
  model := none
  maxTokens := 2048
  temperature := 0.2
  timeoutSeconds := 60
  retries := 0

def modelName (s : Settings) : String := s.model.getD s.backend.defaultModel

def request (s : Settings) (prompt : String) (system : Option String) : Request where
  prompt := prompt
  system := system
  model := s.modelName
  maxTokens := s.maxTokens
  temperature := s.temperature
  timeoutSeconds := s.timeoutSeconds

end Settings

def Request.messages (r : Request) : List Message :=
  (r.system.map (Message.mk .system)).toList ++ [⟨.user, r.prompt⟩]

end CodeHealth.Advice

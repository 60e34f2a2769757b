import CodeHealth.Text.Occurrence

/-!
What can go wrong when a model is asked for advice.
-/

namespace CodeHealth.Advice

/-- Why one exchange with a service failed. -/
inductive Failure where
  /-- The service did not accept the key. -/
  | authentication (detail : String)
  /-- The service wants fewer requests. -/
  | rateLimited (detail : String)
  /-- The service did not accept the request. -/
  | badRequest (detail : String)
  | timeout (seconds : Nat)
  /-- Anything else. The status is zero if there was none. -/
  | other (status : Nat) (detail : String)
deriving DecidableEq, Repr, Inhabited

namespace Failure

/-- The failure that a status and the text that came with it stand for. -/
def ofStatus (status : Nat) (detail : String) : Failure :=
  if status = 401 ∨ status = 403 then .authentication detail
  else if status = 429 then .rateLimited detail
  else if status = 400 ∨ status = 413 ∨ status = 422 then .badRequest detail
  else .other status detail

def kind : Failure → String
  | .authentication _ => "authentication"
  | .rateLimited _ => "rate-limit"
  | .badRequest _ => "bad-request"
  | .timeout _ => "timeout"
  | .other .. => "other"

def message : Failure → String
  | .authentication d =>
    "authentication failed: the AI service rejected the API key (" ++ d ++ ")"
  | .rateLimited d => "rate limited: the AI service is throttling requests (" ++ d ++ ")"
  | .badRequest d =>
    "malformed request: the AI service could not process the prompt (" ++ d ++ ")"
  | .timeout s => "no response from the AI service within " ++ toString s ++ " seconds"
  | .other status d => "AI service error (status " ++ toString status ++ "): " ++ d

/-- Whether asking again later may help. -/
def isRateLimit : Failure → Bool
  | .rateLimited _ => true
  | _ => false

end Failure

/-- What became of an exchange: the text that the service gave, or a failure. -/
abbrev Outcome := Except Failure String

inductive Unavailable where
  | missingKey (keyVariable signupUrl : String)
  | failed (failure : Failure)
  | emptyReply
deriving DecidableEq, Repr, Inhabited

def Unavailable.message : Unavailable → String
  | .missingKey keyVariable signupUrl =>
    "Missing API key: " ++ keyVariable ++ " not set. Get your key at " ++ signupUrl
  | .failed f => f.message
  | .emptyReply => "the AI service returned an empty response"

end CodeHealth.Advice

import CodeHealth.Advice.Extraction
import CodeHealth.Advice.Service

/-!
Reports with advice. A model's summary and suggestions replace those of a report; whatever goes
wrong, the report keeps its findings and its score and says why there is no advice.
-/

namespace CodeHealth.Advice

/-- What a reply says, unless it is blank. -/
def readReply (question : Question) (reply : String) : Except Unavailable Extraction :=
  if Text.isBlankString reply then .error .emptyReply else .ok (extract question reply)

def readOutcome (question : Question) : Outcome → Except Unavailable Extraction
  | .ok reply => readReply question reply
  | .error f => .error (.failed f)

def ask {m : Type → Type} [Monad m] (service : Service m) (settings : Settings) (prompt : String)
    (question : Question) : m (Except Unavailable Extraction) := do
  let request := settings.request prompt (some systemPrompt)
  pure (readOutcome question (← complete service request settings.retries))

/-- The findings with suggestions, one after the other; a finding that is left without one gets its
own message. -/
def suggestAll : List Finding → List String → List Finding
  | [], _ => []
  | f :: fs, [] => { f with suggestion := some f.message } :: suggestAll fs []
  | f :: fs, s :: ss => { f with suggestion := some s } :: suggestAll fs ss

end CodeHealth.Advice

namespace CodeHealth

def Report.withAdvice (r : Report) (model : String) (p : Advice.Payload) : Report :=
  { r with
    summary := p.summary.getD r.summary
    findings := Advice.suggestAll r.findings p.suggestions
    aiEnhanced := true
    aiModel := some model
    aiError := none }

def Report.withoutAdvice (r : Report) (reason : String) : Report :=
  { r with aiEnhanced := false, aiModel := none, aiError := some reason }

end CodeHealth

namespace CodeHealth.Advice

/-- A report after what came of asking a model. -/
def reconcile (settings : Settings) (r : Report) : Except Unavailable Extraction → Report
  | .ok e => r.withAdvice settings.modelName e.payload
  | .error u => r.withoutAdvice u.message

/-- Asks a model about a report. -/
def enhance {m : Type → Type} [Monad m] (service : Service m) (settings : Settings) (r : Report) :
    m Report := do
  pure (reconcile settings r (← ask service settings (reportPrompt r) .report))

/-- Asks a model about a piece of code. -/
def askSnippet {m : Type → Type} [Monad m] (service : Service m) (settings : Settings)
    (code language : String) : m (Except Unavailable Extraction) :=
  ask service settings (snippetPrompt code language) .snippet

end CodeHealth.Advice

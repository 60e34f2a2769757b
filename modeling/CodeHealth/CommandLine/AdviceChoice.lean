import CodeHealth.Advice.Request
import CodeHealth.CommandLine.Command
import CodeHealth.Project.Settings

/-!
How a service is asked, put together from what was given, what the project says and what the user
says, in this order.
-/

namespace CodeHealth.CommandLine

/-- The service that is asked: the one that was given or else that of the project, if it is one,
and else that of the user. -/
def AdviceArgs.chosenBackend (a : AdviceArgs) (wishes : AdviceWishes) (user : UserSettings) :
    Advice.Backend :=
  let named := match a.backend with
    | some b => some b
    | none => wishes.backend.bind fun name => (Advice.Backend.parse name).toOption
  (named.or user.chosenBackend?).getD Advice.Settings.default.backend

def AdviceArgs.resolve (a : AdviceArgs) (wishes : AdviceWishes) (user : UserSettings) :
    Advice.Settings :=
  let default := Advice.Settings.default
  { backend := a.chosenBackend wishes user
    model := (a.model.or wishes.model).or user.model
    maxTokens := (a.maxTokens.or wishes.maxTokens).getD default.maxTokens
    temperature := (a.temperature.or wishes.temperature).getD default.temperature
    timeoutSeconds := (a.timeoutSeconds.or wishes.timeoutSeconds).getD default.timeoutSeconds
    retries := (a.retries.or wishes.retries).getD default.retries }

end CodeHealth.CommandLine

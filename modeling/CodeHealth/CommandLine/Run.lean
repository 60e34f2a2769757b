import CodeHealth.CommandLine.Analyze
import CodeHealth.CommandLine.Init
import CodeHealth.CommandLine.Insights
import CodeHealth.CommandLine.Rules

/-!
The program as a whole: a command line is read and its command is run.
-/

namespace CodeHealth.CommandLine

def Command.run {m : Type → Type} [Monad m] (host : Host m) (w : World) : Command → m Outcome
  | .analyze args => analyzeCommand host w args
  | .rules args => pure (rulesCommand w args)
  | .init args => initCommand host w args
  | .insights file json advice => insightsCommand host w file json advice

def versionText : String := "pulsecheck 0.3.0\n"

def usageText : String :=
  "Rule-based health analysis for React and TypeScript projects\n\n" ++
  "Usage: pulsecheck [OPTIONS] [PATH] [COMMAND]\n\n" ++
  "Commands:\n" ++
  "  analyze   Analyze a project and print a health report\n" ++
  "  rules     List the rule catalog with the effective settings of a preset\n" ++
  "  init      Write an example pulsecheck.toml\n" ++
  "  insights  Ask the AI service for insights on a single file\n" ++
  "  help      Print this message\n\n" ++
  "Options:\n" ++
  "      --preset <PRESET>          minimal, recommended (default), strict\n" ++
  "      --categories <CATEGORIES>  Only run rules in these categories (comma-separated)\n" ++
  "      --rules <RULES>            Only run these rules (comma-separated ids)\n" ++
  "  -f, --format <FORMAT>          table, json, markdown (or md)\n" ++
  "  -o, --output <OUTPUT>          Write the report to a file instead of stdout\n" ++
  "      --workers <WORKERS>        Number of parallel workers (0 = auto)\n" ++
  "      --fail-on <FAIL_ON>        Exit with code 1 at or above: error, warning, info\n" ++
  "      --ai                       Add an AI-written summary and suggestions\n" ++
  "      --ai-backend <AI_BACKEND>  anthropic (default), openai, ollama\n" ++
  "      --log-level <LOG_LEVEL>    error, warn, info, debug, trace\n" ++
  "  -h, --help                     Print help\n" ++
  "  -V, --version                  Print version\n"

/-- What a refused command line leaves. -/
def Refusal.outcome : Refusal → Outcome
  | .help => .done usageText
  | .version => .done versionText
  | .misuse => ⟨"", "error: invalid arguments\n\nFor more information, try '--help'.\n", 2⟩

def run {m : Type → Type} [Monad m] (host : Host m) (w : World) (args : List String) :
    m Outcome :=
  match Command.read w.environment args with
  | .ok command => command.run host w
  | .error refusal => pure refusal.outcome

end CodeHealth.CommandLine

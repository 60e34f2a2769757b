import CodeHealth.Advice.Enhancement
import CodeHealth.CommandLine.AdviceChoice
import CodeHealth.CommandLine.Host

/-!
Questions to a service about one file.
-/

namespace CodeHealth.CommandLine

/-- The number of characters of a file that are sent. -/
def maxSnippet : Nat := 12000

/-- The language of a file, as the service is told. -/
def languageOf (file : Path) : String :=
  if file.isTypeScript then "typescript" else if file.isScript then "javascript" else "text"

/-- What a service said about a file as a value. -/
def insightsJson (file : Path) (model : String) (p : Advice.Payload) : Json :=
  .object
    [("file", .string file.text), ("insights", .strings p.insights), ("model", .string model),
      ("suggestions", .strings p.suggestions)]

def numbered (items : List String) : List String :=
  (items.zipIdx 1).map fun (item, n) => "  " ++ toString n ++ ". " ++ item ++ "\n"

/-- What a service said about a file. -/
def insightsText (w : World) (file : Path) (model : String) (p : Advice.Payload) : String :=
  "\n" ++ w.paint .bold "insights" ++ " " ++ w.paint .cyan file.text ++ "  " ++
    w.paint .dim ("(" ++ model ++ ")") ++ "\n" ++
    "\n" ++ w.paint .bold "Insights" ++ "\n" ++
    "".intercalate (p.insights.map fun item => "  • " ++ item ++ "\n") ++
    "\n" ++ w.paint .bold "Suggestions" ++ "\n" ++
    "".intercalate (numbered p.suggestions)

/-- Asks a service about a file. The project that the file belongs to is its directory. -/
def insightsCommand {m : Type → Type} [Monad m] (host : Host m) (w : World) (file : Path)
    (json : Bool) (args : AdviceArgs) : m Outcome := do
  match w.files.readText file with
  | .error fault => pure (.blocked ⟨"Failed to read " ++ file.text, some fault.message⟩)
  | .ok code =>
    let snippet := String.ofList (code.toList.take maxSnippet)
    let s := ProjectSettings.load w.files file.parent
    let user := UserSettings.load w.files w.environment
    let settings := args.resolve s.advice user
    match settings.backend.key (w.environment settings.backend.keyVariable)
        (user.key? settings.backend) with
    | .error u => pure (.blocked ⟨u.message, none⟩)
    | .ok key =>
      let service := host.service settings.backend key
      match ← Advice.askSnippet service settings snippet (languageOf file) with
      | .error u =>
        pure (.blocked ⟨"AI insights failed for " ++ file.text, some u.message⟩)
      | .ok e =>
        pure (.done
          (if json then (insightsJson file settings.modelName e.payload).pretty ++ "\n"
          else insightsText w file settings.modelName e.payload))

end CodeHealth.CommandLine

import CodeHealth.CommandLine.Command
import CodeHealth.CommandLine.Host
import CodeHealth.Project.Settings

/-!
The start of a project: a settings file to begin with.
-/

namespace CodeHealth.CommandLine

def exampleSettings : String :=
  "# pulsecheck configuration\n" ++
  "#\n" ++
  "# preset: minimal | recommended | strict\n" ++
  "preset = \"recommended\"\n" ++
  "\n" ++
  "# Only run rules in these categories (omit to run every category)\n" ++
  "# categories = [\"correctness\", \"react-hooks\", \"type-safety\"]\n" ++
  "\n" ++
  "# Only run these rules (omit to use the preset)\n" ++
  "# enabled_rules = [\"react-missing-key\"]\n" ++
  "\n" ++
  "[rules.large-component]\n" ++
  "options = \x7b max_lines = 250 \x7d\n" ++
  "\n" ++
  "[rules.loose-equality]\n" ++
  "options = \x7b allow_null = true \x7d\n" ++
  "\n" ++
  "# [rules.no-console]\n" ++
  "# enabled = true\n" ++
  "# severity = \"warning\"\n" ++
  "# options = \x7b allow = \"error,warn\" \x7d\n" ++
  "\n" ++
  "[ai]\n" ++
  "# backend = \"anthropic\"   # anthropic | openai | ollama\n" ++
  "# model = \"claude-sonnet-4-20250514\"\n" ++
  "timeout_secs = 60\n" ++
  "max_tokens = 2048\n" ++
  "temperature = 0.2\n" ++
  "\n" ++
  "[defaults]\n" ++
  "format = \"table\"\n" ++
  "# fail_on = \"error\"\n"

/-- What is said when the settings file is there already. -/
def keptNote (w : World) (file : Path) : String :=
  w.paint .yellow "•" ++ " " ++ w.paint .cyan file.text ++
    " already exists (use --force to overwrite)\n"

/-- What is said when the settings file has been made. -/
def createdNote (w : World) (file : Path) : String :=
  w.paint .green "✓" ++ " Created " ++ w.paint .cyan file.text ++ "\n\nNext: run " ++
    w.paint .bold "pulsecheck ." ++ " to analyze the project.\n"

/-- Makes a settings file. One that is there is written over only by force. -/
def initCommand {m : Type → Type} [Monad m] (host : Host m) (w : World) (args : InitArgs) :
    m Outcome := do
  let p := args.path.getD ⟨"."⟩
  match w.files.resolve p with
  | .error fault => pure (.blocked ⟨"Path does not exist: " ++ p.text, some fault.message⟩)
  | .ok place =>
    let root := FileSystem.absolute place
    if !w.files.isDirectory p then
      pure (.blocked ⟨"Path is not a directory: " ++ root.text, none⟩)
    else
      let file := root.join ⟨ProjectSettings.tomlName⟩
      if w.files.contains file && !args.force then pure (.done (keptNote w file))
      else
        match ← host.save file exampleSettings with
        | some fault => pure (.blocked ⟨"Failed to write " ++ file.text, some fault.message⟩)
        | none => pure (.done (createdNote w file))

end CodeHealth.CommandLine

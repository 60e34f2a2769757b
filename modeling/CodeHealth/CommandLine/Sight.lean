import CodeHealth.CommandLine.Analyze
import CodeHealth.Project.Discovery

/-!
What a command has to see before it runs. A file system in memory can stand for the one of the
machine as long as it holds everything that the command comes to; here that is named, so that
nothing else has to be read.
-/

namespace CodeHealth

namespace Path

/-- The place that a path leads to if all its steps can be made. -/
def placeFrom (current : List String) (p : Path) : List String :=
  p.components.foldl (fun place c =>
    match c with
    | .root => []
    | .here => place
    | .parent => place.dropLast
    | .name n => place ++ [n]) current

end Path

namespace CommandLine

/-- What a command has to see: what stands at some places and on the way to them, and of one
directory everything that matters to an analysis. -/
structure Sight where
  places : List (List String)
  project : Option (List String)
deriving DecidableEq, Repr

/-- The variables that settle what a command does. -/
def variableNames : List String :=
  ["PULSECHECK_PRESET", "PULSECHECK_AI_BACKEND", "ANTHROPIC_API_KEY", "OPENAI_API_KEY",
    "OLLAMA_MODEL", "XDG_CONFIG_HOME", "HOME", "CLICOLOR", "CLICOLOR_FORCE", "NO_COLOR"]

namespace Sight

/-- The places on the way to a place, the place itself last. -/
def along (place : List String) : List (List String) :=
  (List.range (place.length + 1)).map place.take

/-- The names of the settings files of a project. -/
def settingsNames : List String := [ProjectSettings.tomlName, ProjectSettings.jsonName]

/-- The ways from a directory to its ignore files. -/
def ignoreFiles : List (List String) :=
  [[".ignore"], [".gitignore"], [".git", "info", "exclude"]]

/-- Whether a file below the root of a project matters to an analysis whatever it leads to. -/
def isSetting (name : String) : Bool :=
  name = "package.json" || settingsNames.contains name || ignoreFiles.contains [name]

def settings (root : List String) : List (List String) := settingsNames.map fun n => root ++ [n]

def userSettings (current : List String) (env : Environment) : List (List String) :=
  ((UserSettings.path? env).map (·.placeFrom current)).toList

/-- The places of the ignore files of a directory and of those above it. -/
def ignoreFilesAbove (root : List String) : List (List String) :=
  (along root).flatMap fun directory => ignoreFiles.map (directory ++ ·)

def ofCommand (current : List String) (env : Environment) : Command → Sight
  | .analyze args =>
    let root := args.root.placeFrom current
    ⟨root :: (ignoreFilesAbove root ++ userSettings current env), some root⟩
  | .rules args => ⟨settings ((args.path.getD ⟨"."⟩).placeFrom current), none⟩
  | .init args =>
    let root := (args.path.getD ⟨"."⟩).placeFrom current
    ⟨[root, root ++ [ProjectSettings.tomlName]], none⟩
  | .insights file _ _ =>
    ⟨file.placeFrom current ::
      (settings (file.parent.placeFrom current) ++ userSettings current env), none⟩

/-- What a command line has to see; one that is refused sees nothing. -/
def ofArgs (current : List String) (env : Environment) (args : List String) : Sight :=
  match Command.read env args with
  | .ok command => ofCommand current env command
  | .error _ => ⟨[], none⟩

end Sight

end CommandLine

end CodeHealth

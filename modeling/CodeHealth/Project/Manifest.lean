import CodeHealth.FileSystem
import CodeHealth.Json.Reader
import CodeHealth.Json.Record
import CodeHealth.KeyMap
import CodeHealth.Project.Info
import CodeHealth.Text.Occurrence

/-!
Manifests of projects. A manifest names the project and the packages that it depends on; they tell
the framework and the platform. Without a manifest that can be read nothing is known.
-/

namespace CodeHealth

structure Manifest where
  name : Option String
  version : Option String
  dependencies : KeyMap Json
  devDependencies : KeyMap Json

namespace Manifest

def shape : Json.Shape :=
  .record "PackageJson"
    [("name", false, .optional .string), ("version", false, .optional .string),
      ("dependencies", false, .any), ("devDependencies", false, .any)]

def ofJson? (j : Json) : Option Manifest := do
  let names := ["name", "version", "dependencies", "devDependencies"]
  let r ← j.record? names names
  let packages (field : String) : Option (KeyMap Json) :=
    Json.defaulted? (fun v => (v.table? some).map KeyMap.ofList) .empty r field
  pure {
    name := ← Json.optional? Json.asString? r "name"
    version := ← Json.optional? Json.asString? r "version"
    dependencies := ← packages "dependencies"
    devDependencies := ← packages "devDependencies" }

def read? (text : String) : Option Manifest :=
  (Json.readShape shape text.toList).toOption.bind ofJson?

def dependsOn (m : Manifest) (package : String) : Bool :=
  m.dependencies.contains package || m.devDependencies.contains package

/-- The framework and the platform. A framework that builds on others comes before them. -/
def framework (m : Manifest) : String × Platform :=
  if m.dependsOn "next" then ("Next.js", .nextJs)
  else if m.dependsOn "react-native" || m.dependsOn "expo" then ("React Native", .reactNative)
  else if m.dependsOn "react" then ("React", .react)
  else if m.dependsOn "vue" then ("Vue", .generic)
  else if m.dependsOn "express" || m.dependsOn "fastify" || m.dependsOn "koa" then ("Node", .node)
  else ("Unknown", .generic)

/-- A text that says something, or else what is said without it. -/
def saidOr (default : String) (text : Option String) : String :=
  (text.filter fun s => !Text.isBlankString s).getD default

def info (m : Manifest) : ProjectInfo where
  name := saidOr ProjectInfo.unknown.name m.name
  framework := m.framework.1
  version := saidOr ProjectInfo.unknown.version m.version
  dependencies := m.dependencies.keys
  devDependencies := m.devDependencies.keys

end Manifest

/-- What is known of the project with the given root, and its platform. -/
def projectInfo (fs : FileSystem) (root : Path) : ProjectInfo × Platform :=
  match (fs.readText (root.join ⟨"package.json"⟩)).toOption.bind Manifest.read? with
  | some m => (m.info, m.framework.2)
  | none => (.unknown, .generic)

end CodeHealth

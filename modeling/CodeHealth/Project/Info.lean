/-!
What is known about a project.
-/

namespace CodeHealth

inductive Platform where
  | react
  | reactNative
  | nextJs
  | node
  | generic
deriving DecidableEq, Repr, Inhabited

namespace Platform

def name : Platform → String
  | .react => "react"
  | .reactNative => "react-native"
  | .nextJs => "next-js"
  | .node => "node"
  | .generic => "generic"

def ofName? : String → Option Platform
  | "react" => some .react
  | "react-native" => some .reactNative
  | "next-js" => some .nextJs
  | "node" => some .node
  | "generic" => some .generic
  | _ => none

end Platform

/-- What the manifest of a project says. -/
structure ProjectInfo where
  name : String
  framework : String
  version : String
  dependencies : List String
  devDependencies : List String
deriving DecidableEq, Repr

namespace ProjectInfo

/-- What is said of a project without a manifest. -/
def unknown : ProjectInfo := ⟨"Unknown Project", "Unknown", "0.0.0", [], []⟩

instance : Inhabited ProjectInfo := ⟨unknown⟩

end ProjectInfo

end CodeHealth

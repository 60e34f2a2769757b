import CodeHealth.Rule.Catalog

/-!
Presets. A preset settles for every rule of the catalog whether it is on, and how much a violation
weighs. Each preset contains the weaker ones, in coverage and in severity.
-/

namespace CodeHealth.Rule

/-- A named choice of rules, from the weakest. -/
inductive Preset where
  | minimal
  | recommended
  | strict
deriving DecidableEq, Repr, Inhabited

structure PresetEntry where
  enabled : Bool
  severity : Severity
deriving DecidableEq, Repr

namespace Preset

def name : Preset → String
  | .minimal => "minimal"
  | .recommended => "recommended"
  | .strict => "strict"

def on (severity : Severity) : PresetEntry := ⟨true, severity⟩

def off (severity : Severity) : PresetEntry := ⟨false, severity⟩

def table : Preset → List (String × PresetEntry)
  | .minimal =>
    [(missingKey.id, on .error), (conditionalHook.id, on .error),
      (missingDependencies.id, off .warning), (explicitAny.id, off .warning),
      (suppression.id, off .warning), (nonNullAssertion.id, off .info),
      (imageAlt.id, off .warning), (clickKeyboard.id, off .info), (inlineHandler.id, off .info),
      (largeComponent.id, off .info), (consoleCall.id, off .info),
      (varDeclaration.id, off .warning), (looseEquality.id, off .warning)]
  | .recommended =>
    [(missingKey.id, on .error), (conditionalHook.id, on .error),
      (missingDependencies.id, on .warning), (explicitAny.id, on .warning),
      (suppression.id, on .warning), (nonNullAssertion.id, off .info),
      (imageAlt.id, on .warning), (clickKeyboard.id, on .info), (inlineHandler.id, off .info),
      (largeComponent.id, on .info), (consoleCall.id, off .info),
      (varDeclaration.id, on .warning), (looseEquality.id, on .warning)]
  | .strict =>
    [(missingKey.id, on .error), (conditionalHook.id, on .error),
      (missingDependencies.id, on .error), (explicitAny.id, on .error),
      (suppression.id, on .error), (nonNullAssertion.id, on .warning),
      (imageAlt.id, on .error), (clickKeyboard.id, on .warning), (inlineHandler.id, on .warning),
      (largeComponent.id, on .warning), (consoleCall.id, on .warning),
      (varDeclaration.id, on .error), (looseEquality.id, on .error)]

/-- What a preset settles for the rule with a given id. -/
def entry? (p : Preset) (id : String) : Option PresetEntry := p.table.lookup id

def enabledRules (p : Preset) : List String := (p.table.filter (·.2.enabled)).map (·.1)

/-- The rules of the catalog that a preset says nothing about. -/
def missingRules (p : Preset) : List String :=
  (catalog.filter fun r => (p.entry? r.id).isNone).map (·.id)

/-- The preset of a name that is written exactly. -/
def ofName? : String → Option Preset
  | "minimal" => some .minimal
  | "recommended" => some .recommended
  | "strict" => some .strict
  | _ => none

/-- Reads a preset: letter case and blanks around the name do not matter. The message names what is
not a preset. -/
def parse (text : String) : Except String Preset :=
  let name := Text.lower (Text.trimmed text)
  match ofName? name with
  | some p => .ok p
  | none => .error
      ("unknown preset '" ++ name ++ "'. Valid presets: minimal, recommended, strict")

end Preset

end CodeHealth.Rule

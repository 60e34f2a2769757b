import CodeHealth.Rule.Options
import CodeHealth.Rule.Preset

/-!
Resolution of settings. A preset and what a caller asks for besides are merged into one
configuration. Whether a rule runs is settled by the first of these that says something: the list
of allowed rules, the list of allowed categories, the setting of the rule, the preset. Resolution
always gives a configuration; what it could not use becomes a warning.
-/

namespace CodeHealth.Rule

/-- What a caller asks for one rule. -/
structure RuleOverride where
  enabled : Option Bool
  severity : Option Severity
  options : Options
deriving Inhabited

/-- What a caller asks for on top of a preset. -/
structure Overrides where
  /-- If given, only these rules run. -/
  enabledRules : Option (List String)
  /-- If given, only rules of these categories run. -/
  categories : Option (List String)
  rules : KeyMap RuleOverride
deriving Inhabited

structure RuleConfig where
  enabled : Bool
  severity : Severity
  options : Options
deriving Inhabited

structure Config where
  preset : Preset
  /-- The categories, each with whether the list of allowed categories admits it. -/
  categories : List (String × Bool)
  /-- The rules in the order of the catalog. -/
  rules : List (String × RuleConfig)
deriving Inhabited

inductive Warning where
  | unknownPreset (message : String)
  | unknownRule (id : String)
  | unknownCategory (name : String)
  | overrideForUnknownRule (id : String)
  | unknownOption (rule key : String)
deriving DecidableEq, Repr

def Warning.message : Warning → String
  | .unknownPreset message => message ++ "; using 'recommended' instead"
  | .unknownRule id => "unknown rule '" ++ id ++ "' in rule allow-list"
  | .unknownCategory name => "unknown category '" ++ name ++ "' in category allow-list"
  | .overrideForUnknownRule id => "override for unknown rule '" ++ id ++ "' ignored"
  | .unknownOption rule key => "rule '" ++ rule ++ "' does not recognise option '" ++ key ++ "'"

namespace Config

def rule? (c : Config) (id : String) : Option RuleConfig := c.rules.lookup id

/-- Whether a rule runs. A rule without settings runs. -/
def isEnabled (c : Config) (id : String) : Bool := ((c.rule? id).map (·.enabled)).getD true

/-- How much a violation of a rule weighs. -/
def severityFor (c : Config) (id : String) : Option Severity :=
  ((c.rule? id).map (·.severity)).or ((find? id).map (·.severity))

def optionsFor (c : Config) (id : String) : Options := ((c.rule? id).map (·.options)).getD .empty

/-- The rules that run, in the order of the catalog. -/
def enabledRuleIds (c : Config) : List String :=
  (catalog.filter fun r => c.isEnabled r.id).map (·.id)

end Config

/-- Whether a category is admitted by the list of allowed categories. -/
def Overrides.admitsCategory (o : Overrides) (category : String) : Bool :=
  match o.categories with
  | some names => names.contains category
  | none => true

def resolveEnabled (p : Preset) (o : Overrides) (r : Entry) : Bool :=
  match o.enabledRules with
  | some ids => ids.contains r.id
  | none =>
    if o.admitsCategory r.category then
      (((o.rules.get? r.id).bind (·.enabled)).or ((p.entry? r.id).map (·.enabled))).getD true
    else false

/-- How much a violation of a rule weighs. -/
def resolveSeverity (p : Preset) (o : Overrides) (r : Entry) : Severity :=
  (((o.rules.get? r.id).bind (·.severity)).or ((p.entry? r.id).map (·.severity))).getD r.severity

/-- The options that are asked for a rule, known or not. -/
def Overrides.optionsFor (o : Overrides) (r : Entry) : Options :=
  ((o.rules.get? r.id).map (·.options)).getD .empty

def resolveRule (p : Preset) (o : Overrides) (r : Entry) : RuleConfig where
  enabled := resolveEnabled p o r
  severity := resolveSeverity p o r
  options := (o.optionsFor r).onlyKnown r.options

/-- The names in the lists and overrides that the catalog does not know. -/
def unknownNames (o : Overrides) : List Warning :=
  ((o.enabledRules.getD []).filter fun id => !isKnown id).map .unknownRule ++
  ((o.categories.getD []).filter fun c => !categories.contains c).map .unknownCategory ++
  (o.rules.keys.filter fun id => !isKnown id).map .overrideForUnknownRule

/-- The options that the rules of the catalog do not understand. -/
def unknownOptions (o : Overrides) : List Warning :=
  catalog.flatMap fun r => ((o.optionsFor r).unknownKeys r.options).map (.unknownOption r.id)

/-- The configuration of a preset and what is asked for besides. -/
def resolvePreset (p : Preset) (o : Overrides) : Config where
  preset := p
  categories := categories.map fun c => (c, o.admitsCategory c)
  rules := catalog.map fun r => (r.id, resolveRule p o r)

/-- The configuration of a preset that is given by name, and what could not be used. A name that is
no preset stands for the recommended one. -/
def resolve (presetName : String) (o : Overrides) : Config × List Warning :=
  let faults := unknownNames o ++ unknownOptions o
  match Preset.parse presetName with
  | .ok p => (resolvePreset p o, faults)
  | .error message => (resolvePreset .recommended o, .unknownPreset message :: faults)

/-- The configuration that nobody asked anything of. -/
def defaultConfig : Config := resolvePreset .recommended ⟨none, none, .empty⟩

end CodeHealth.Rule

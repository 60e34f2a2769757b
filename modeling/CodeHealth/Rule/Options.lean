import CodeHealth.KeyMap

/-!
Options of rules. An option is a whole number, a number, a truth value or a text; a rule asks for
the kind it needs and falls back on a default.
-/

namespace CodeHealth.Rule

/-- The value of an option. A whole number fits 64 bits with a sign. -/
inductive OptionValue where
  | integer (n : Int)
  | float (x : Float)
  | boolean (b : Bool)
  | string (s : String)

namespace OptionValue

/-- A value as a whole number; a number is cut toward zero and to 64 bits. -/
def asInt? : OptionValue → Option Int
  | .integer n => some n
  | .float x => some x.toInt64.toInt
  | _ => none

def asFloat? : OptionValue → Option Float
  | .integer n => some (Float.ofInt n)
  | .float x => some x
  | _ => none

def asBool? : OptionValue → Option Bool
  | .boolean b => some b
  | _ => none

def asString? : OptionValue → Option String
  | .string s => some s
  | _ => none

def kind : OptionValue → String
  | .integer _ => "integer"
  | .float _ => "float"
  | .boolean _ => "boolean"
  | .string _ => "string"

end OptionValue

abbrev Options := KeyMap OptionValue

namespace Options

/-- The whole number under a name, or a default. -/
def intOr (o : Options) (k : String) (default : Int) : Int :=
  ((o.get? k).bind OptionValue.asInt?).getD default

/-- The truth value under a name, or a default. -/
def boolOr (o : Options) (k : String) (default : Bool) : Bool :=
  ((o.get? k).bind OptionValue.asBool?).getD default

/-- The text under a name, or a default. -/
def stringOr (o : Options) (k : String) (default : String) : String :=
  ((o.get? k).bind OptionValue.asString?).getD default

/-- The names that are not among the allowed ones. -/
def unknownKeys (o : Options) (allowed : List String) : List String :=
  o.keys.filter fun k => !allowed.contains k

/-- The options whose names are among the allowed ones. -/
def onlyKnown (o : Options) (allowed : List String) : Options := o.keepKeys allowed.contains

end Options

end CodeHealth.Rule

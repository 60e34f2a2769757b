import CodeHealth.Check.ComponentLength
import CodeHealth.Check.ConsoleCall
import CodeHealth.Check.ExplicitAny
import CodeHealth.Check.Hook
import CodeHealth.Check.InlineHandler
import CodeHealth.Check.LooseEquality
import CodeHealth.Check.MissingKey
import CodeHealth.Check.NonNullAssertion
import CodeHealth.Check.OpeningTag
import CodeHealth.Check.Suppression
import CodeHealth.Check.VarDeclaration

/-!
The checkers of the catalog's rules.
-/

namespace CodeHealth.Check

def builtin : List Checker :=
  [missingKey, looseEquality, conditionalHook, missingDependencies, explicitAny, suppression,
    nonNullAssertion, imageAlt, clickKeyboard, inlineHandler, largeComponent, consoleCall,
    varDeclaration]

end CodeHealth.Check

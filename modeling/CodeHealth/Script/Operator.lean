import CodeHealth.Script.Literal

/-!
Operators: which one stands at the front of a text, and how tightly it binds.
-/

namespace CodeHealth.Script

/-- An operator between two operands; a higher level binds more tightly. -/
structure BinaryOperator where
  name : String
  level : Nat
deriving DecidableEq, Repr

def relationLevel : Nat := 8

/-- The level of powers, which bind to the right. -/
def powerLevel : Nat := 12

/-- The level of operands with operators before them. -/
def unaryLevel : Nat := 13

/-- The operators between two operands, a longer one before those that it starts with. -/
def binaryOperators : List BinaryOperator :=
  [⟨">>>", 9⟩, ⟨"===", 7⟩, ⟨"!==", 7⟩, ⟨"**", powerLevel⟩, ⟨"??", 1⟩, ⟨"||", 2⟩, ⟨"&&", 3⟩,
    ⟨"==", 7⟩, ⟨"!=", 7⟩, ⟨"<<", 9⟩, ⟨">>", 9⟩, ⟨"<=", relationLevel⟩, ⟨">=", relationLevel⟩,
    ⟨"|", 4⟩, ⟨"^", 5⟩, ⟨"&", 6⟩, ⟨"<", relationLevel⟩, ⟨">", relationLevel⟩, ⟨"+", 10⟩,
    ⟨"-", 10⟩, ⟨"*", 11⟩, ⟨"/", 11⟩, ⟨"%", 11⟩]

/-- The operators that change what they assign to, without the equals sign. -/
def compoundOperators : List (List Char) :=
  [['>', '>', '>'], ['*', '*'], ['<', '<'], ['>', '>'], ['&', '&'], ['|', '|'], ['?', '?'], ['+'],
    ['-'], ['*'], ['/'], ['%'], ['&'], ['|'], ['^']]

/-- The length of the assignment operator that a text starts with. -/
def assignmentLength? : List Char → Option Nat
  | '=' :: cs =>
    if cs.head? = some '=' ∨ cs.head? = some '>' then none else some 1
  | cs =>
    compoundOperators.findSome? fun op =>
      if (op ++ ['=']).isPrefixOf cs then some (op.length + 1) else none

/-- The marks that can start an operator between two operands. -/
def operatorMarks : List Char := "<>=!*?|&^+-/%".toList

/-- Whether a text starts with something that looks like an operator and is none: a comment, or an
operator that counts. -/
def looksLikeOperator : List Char → Bool
  | '/' :: '*' :: _ => true
  | '/' :: '/' :: _ => true
  | '+' :: '+' :: _ => true
  | '-' :: '-' :: _ => true
  | _ => false

/-- The operator between two operands that a text starts with. Assignments and arrows are none. -/
def binaryOperator? (cs : List Char) : Option BinaryOperator :=
  match cs with
  | [] => none
  | c :: _ =>
    if !operatorMarks.contains c || looksLikeOperator cs || (assignmentLength? cs).isSome then none
    else binaryOperators.find? fun op => op.name.toList.isPrefixOf cs

/-- The length of the operator before an operand that a text starts with. -/
def unaryLength? : List Char → Option Nat
  | '+' :: '+' :: _ => some 2
  | '-' :: '-' :: _ => some 2
  | '+' :: _ => some 1
  | '-' :: _ => some 1
  | '!' :: _ => some 1
  | '~' :: _ => some 1
  | _ => none

/-- The words that are operators before an operand. -/
def unaryWords : List String := ["typeof", "void", "delete", "await"]

end CodeHealth.Script

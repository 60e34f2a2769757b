import CodeHealth.Text.Line

/-!
Syntax trees of scripts. A node has a kind, the place where it starts, and its children in order;
comments are nodes like any other. The kinds that no rule asks for are not told apart.
-/

namespace CodeHealth.Script

inductive Kind where
  | identifier (name : String)
  /-- The name behind a dot. -/
  | property (name : String)
  /-- A call: what is called comes first. -/
  | call
  | arguments
  /-- An access by a dot: the name comes last. -/
  | member
  /-- Functions: the body comes last. -/
  | arrow
  | functionExpression
  | functionDeclaration
  | generatorExpression
  | generatorDeclaration
  | method
  | block
  | returnStatement
  | parenthesized
  /-- An access by an index in square brackets. -/
  | subscript
  | array
  | object
  /-- A member of an object with a value of its own, which comes last. -/
  | pair
  /-- A member of an object that is called like the variable with its value. -/
  | shorthand
  /-- A value that is asserted not to be missing. -/
  | nonNull
  | this
  /-- An assignment by an equals sign. -/
  | assignment
  | ifStatement
  | ternary
  | forStatement
  | forInStatement
  | whileStatement
  | doStatement
  | switchStatement
  | binary (operator : String)
  | markupElement
  /-- The opening tag of an element; a bare one has no name. -/
  | markupOpening (bare : Bool)
  /-- A tag without content, with its attributes. -/
  | markupSelfClosing
  | markupAttribute (name : String)
  | markupExpression
  | spread
  | comment
  | other
deriving DecidableEq, Repr, Inhabited

inductive Tree where
  | node (kind : Kind) (start : Text.Position) (children : List Tree)
deriving Inhabited

namespace Tree

def kind : Tree → Kind
  | node k _ _ => k

def start : Tree → Text.Position
  | node _ p _ => p

def children : Tree → List Tree
  | node _ _ cs => cs

end Tree

/-- The kinds that start a function of their own. Generators that are expressions do not count, nor
do the bodies of classes. -/
def Kind.isFunctionBoundary : Kind → Bool
  | .arrow => true
  | .functionExpression => true
  | .functionDeclaration => true
  | .generatorDeclaration => true
  | .method => true
  | _ => false

/-- The kinds of what holds one value that may be changed. -/
def Kind.isTarget : Kind → Bool
  | .identifier _ => true
  | .member => true
  | .subscript => true
  | .nonNull => true
  | _ => false

mutual

/-- Whether a node is a pattern, or a member of one: values may be assigned to its parts. Where
`defaults` is set, it may have a value in case there is none. -/
def Tree.isPattern (defaults : Bool) : Tree → Bool
  | .node .array _ ts => Tree.arePatterns true ts
  | .node .object _ ts => Tree.arePatterns false ts
  | .node .spread _ [t] => t.isPattern defaults
  | .node .pair _ [t] => t.isPattern true
  | .node .pair _ [_, t] => t.isPattern true
  | .node .shorthand _ _ => true
  | .node .assignment _ (t :: _) => defaults && t.isPattern false
  | .node k _ _ => k.isTarget

/-- Whether all nodes are patterns, or members of one. -/
def Tree.arePatterns (defaults : Bool) : List Tree → Bool
  | [] => true
  | t :: ts => t.isPattern defaults && Tree.arePatterns defaults ts

end

/-- Whether something may be assigned to a node. Only an equals sign takes values apart. -/
def Tree.isAssignable (byEquals : Bool) (t : Tree) : Bool :=
  t.kind == .parenthesized || t.kind.isTarget || (byEquals && t.isPattern false)

/-- The kinds whose parts may not run. -/
def Kind.isConditional : Kind → Bool
  | .ifStatement => true
  | .ternary => true
  | .forStatement => true
  | .forInStatement => true
  | .whileStatement => true
  | .doStatement => true
  | .switchStatement => true
  | .binary op => op == "&&" || op == "||" || op == "??"
  | _ => false

/-- The names under which kinds of nodes are known that start a function of their own. -/
def boundaryNames : List String :=
  ["function_declaration", "function_expression", "function", "arrow_function",
    "method_definition", "generator_function_declaration"]

mutual

/-- What a visitor gives for a node and all nodes below it, parents first. The visitor is told
what was last decided above the node. -/
def visit {σ α : Type} (decide : σ → Kind → σ) (look : σ → Tree → List α) (above : σ) :
    Tree → List α
  | .node k p cs => look above (.node k p cs) ++ visitAll decide look (decide above k) cs

/-- What a visitor gives for a list of nodes and all nodes below them. -/
def visitAll {σ α : Type} (decide : σ → Kind → σ) (look : σ → Tree → List α) (above : σ) :
    List Tree → List α
  | [] => []
  | t :: ts => visit decide look above t ++ visitAll decide look above ts

end

/-- What an expression is without the round brackets around it: the first node inside counts, even
if it is a comment. -/
def unparenthesize : Tree → Tree
  | .node .parenthesized _ (c :: _) => unparenthesize c
  | t => t

end CodeHealth.Script

/-
  Transclude/Tree/Builder.lean
  ============================
  **Building trees by hand.**

  Every node that is built gets the next id, counting up from a first one, and
  stands for no text until it is given a span.  A node is numbered after the
  children it is built from, so ids grow from the leaves to the root.  The last
  word is the id of synthesized nodes and is never handed out.
-/
import Transclude.Tree.Basic

namespace Transclude

/-- A construction that numbers nodes from a running id on. -/
abbrev Builder := StateT UInt32 (Except Violation)

namespace Builder

/-- The result of a construction whose first node gets the id `first`. -/
def startingAt {α : Type} (first : UInt32) (build : Builder α) : Except Violation α :=
  build.run' first

/-- The next id. -/
def fresh : Builder NodeId := fun next =>
  if next = NodeId.dummy.val then .error .idsExhausted else .ok (⟨next⟩, next + 1)

def node (kind : Kind) (children : List Node) : Builder Node := do
  return ⟨← fresh, kind, .dummy, children⟩

/-! ### Expressions -/

def other (tag : String) (children : List Node) : Builder Node := node (.other tag) children

def identifier (name : String) : Builder Node := node (.identifier name) []

def string (value : String) : Builder Node := node (.stringLiteral value) []

/-- A number; a leading `-` becomes an operator over the rest. -/
def number (text : String) : Builder Node := do
  match text.toList with
  | '-' :: magnitude => do
    let operand ← node (.numericLiteral (String.ofList magnitude)) []
    node (.prefixUnaryExpression .minus) [operand]
  | _ => node (.numericLiteral text) []

def callOf (callee : Node) (arguments : List Node) : Builder Node :=
  node .callExpression (callee :: arguments)

/-- A call of a function by its name. -/
def call (callee : String) (arguments : List Node) : Builder Node := do
  callOf (← identifier callee) arguments

/-- A property of an object. -/
def member (object : Node) (name : String) : Builder Node := do
  let name ← identifier name
  node .propertyAccessExpression [object, name]

/-! ### Declarations -/

def declaration (name : Node) (initializer : Option Node) : Builder Node :=
  node .variableDeclaration (name :: initializer.toList)

/-- A statement that declares one constant. -/
def constant (name : String) (initializer : Node) : Builder Node := do
  let name ← identifier name
  let declared ← declaration name (some initializer)
  node .variableStatement [declared]

def objectPattern (elements : List Node) : Builder Node := node .objectBindingPattern elements

/-- A statement that takes an object apart. -/
def destructuring (elements : List Node) (initializer : Node) : Builder Node := do
  let pattern ← objectPattern elements
  let declared ← declaration pattern (some initializer)
  node .variableStatement [declared]

def elementOf (property : Option Node) (name : Node) (initializer : Option Node) :
    Builder Node :=
  node (.bindingElement property.isSome) (property.toList ++ name :: initializer.toList)

/-- An element of a pattern that binds a name, perhaps to a property named otherwise. -/
def element (property : Option String) (name : String) : Builder Node := do
  let property ← property.mapM identifier
  let name ← identifier name
  elementOf property name none

/-! ### Statements -/

def expression (expression : Node) : Builder Node := node .expressionStatement [expression]

def block (statements : List Node) : Builder Node := node .block statements

def sourceFile (statements : List Node) : Builder Node := node .sourceFile statements

/-! ### Imports -/

def importOf (clause : Option Node) (specifier : String) : Builder Node := do
  let specifier ← string specifier
  node .importDeclaration (clause.toList ++ [specifier])

/-- Specifiers that import names as they are, numbered from left to right. -/
def importSpecifiers : List String → Builder (List Node)
  | [] => return []
  | name :: names => do
    let name ← identifier name
    let specifier ← node .importSpecifier [name]
    return specifier :: (← importSpecifiers names)

def namedImports (names : List String) : Builder Node := do
  node .namedImports (← importSpecifiers names)

/-- A clause with perhaps a default name and perhaps a list of names, which may be empty. -/
def importClause (default : Option String) (named : Option (List String)) : Builder Node := do
  let default ← default.mapM identifier
  let named ← named.mapM namedImports
  node .importClause (default.toList ++ named.toList)

/-- A clause that imports a whole module under one name. -/
def namespaceImport (name : String) : Builder Node := do
  let name ← identifier name
  let everything ← node .namespaceImport [name]
  node .importClause [everything]

end Builder

end Transclude

/-
  Transclude/Tree/Parts.lean
  ==========================
  **The parts of a node, by role.**

  Each function reads one role off the layout of the kinds that have it and
  answers `none` (or the empty list) on every other kind, and on a node that has
  too few children for the role.
-/
import Transclude.Tree.Basic

namespace Transclude.Node

def identifier? (n : Node) : Option String :=
  match n.kind with
  | .identifier name => some name
  | _ => none

def string? (n : Node) : Option String :=
  match n.kind with
  | .stringLiteral value => some value
  | _ => none

/-! ### Calls -/

def callee? (n : Node) : Option Node :=
  match n.kind with
  | .callExpression => n.children.head?
  | _ => none

def arguments (n : Node) : List Node :=
  match n.kind with
  | .callExpression => n.children.tail
  | _ => []

/-! ### Declarations and binding elements -/

/-- The identifier or pattern that a variable declaration binds. -/
def declarationName? (n : Node) : Option Node :=
  match n.kind with
  | .variableDeclaration => n.children.head?
  | _ => none

def initializer? (n : Node) : Option Node :=
  match n.kind with
  | .variableDeclaration => n.children[1]?
  | .bindingElement propertyName => n.children[if propertyName then 2 else 1]?
  | _ => none

/-- The name of the property that is bound, where it is spelled out. -/
def propertyName? (n : Node) : Option Node :=
  match n.kind with
  | .bindingElement true => n.children.head?
  | .importSpecifier => if n.children.length = 2 then n.children.head? else none
  | _ => none

/-- The name that a binding element or an import specifier introduces. -/
def boundName? (n : Node) : Option Node :=
  match n.kind with
  | .bindingElement propertyName => n.children[if propertyName then 1 else 0]?
  | .importSpecifier => n.children.getLast?
  | _ => none

/-! ### Imports -/

/-- The clause of an import; an import for its effects alone has none. -/
def importClause? (n : Node) : Option Node :=
  match n.kind with
  | .importDeclaration => n.children.head?.filter fun child => decide (child.kind = .importClause)
  | _ => none

def moduleSpecifier? (n : Node) : Option Node :=
  match n.kind with
  | .importDeclaration => n.children.getLast?
  | _ => none

/-- The children of an import clause that introduce names. -/
def introducesNames (n : Node) : Bool :=
  match n.kind with
  | .identifier _ | .namedImports | .namespaceImport => true
  | _ => false

/-- Whether an import clause introduces a name, a list of names or a namespace. -/
def bindsNames (n : Node) : Bool :=
  decide (n.kind = .importClause) && n.children.any introducesNames

end Transclude.Node

/-
  Transclude/Tree/Basic.lean
  ==========================
  **Syntax trees of script files.**

  A node carries an id, a kind, the extent of text it was read from, and its
  children in source order.  Ids and extents are 32-bit words; the largest word
  is set aside for nodes that stand for no text, so such a node is recognised by
  its id alone.

  A tree is a plain value.  The layout written on each kind says what its
  children are; nothing forces a tree to obey it, and every function of the
  library is defined on all trees.
-/

namespace Transclude

/-! ### Rules of construction -/

/-- The ways in which a request to build a tree or a file is refused.  All of them are checks
    that a program can be built without; the library describes it with them. -/
inductive Violation where
  /-- A span was asked for whose end lies before its start. -/
  | reversedSpan (lo hi : UInt32)
  /-- The root of a file has another kind than `sourceFile`. -/
  | rootNotSourceFile
  /-- Only the id of synthesized nodes is left to hand out, and the count of ids cannot go past
      it.  Where sums are not checked for overflow there is no such refusal: the last id is
      handed out as well, and the count goes on from zero. -/
  | idsExhausted
deriving DecidableEq, Repr

/-- The words in which a refusal is reported. -/
def Violation.message : Violation → String
  | .reversedSpan lo hi =>
    "span starts after it ends: " ++ toString lo.toNat ++ ".." ++ toString hi.toNat
  | .rootNotSourceFile =>
    "assertion `left == right` failed: root of a file must be a SourceFile"
  | .idsExhausted => "attempt to add with overflow"

/-! ### Identity and extent -/

/-- The identity under which a node's symbols are recorded. -/
structure NodeId where
  val : UInt32
deriving DecidableEq, Repr

namespace NodeId

/-- The id shared by all synthesized nodes. -/
def dummy : NodeId := ⟨4294967295⟩

def isDummy (id : NodeId) : Bool := decide (id = dummy)

def text (id : NodeId) : String := "#" ++ toString id.val.toNat

end NodeId

/-- A range of byte offsets into the text of a file. -/
structure Span where
  /-- Offset of the first byte. -/
  lo : UInt32
  /-- Offset one past the last byte. -/
  hi : UInt32
  ordered : lo ≤ hi
deriving DecidableEq

namespace Span

/-- The span of a node that stands for no text. -/
def dummy : Span := ⟨4294967295, 4294967295, UInt32.le_refl _⟩

/-- The empty span at the start of a text. -/
def origin : Span := ⟨0, 0, UInt32.le_refl _⟩

instance : Inhabited Span := ⟨origin⟩

/-- The span between two offsets, which must be in order. -/
def between (lo hi : UInt32) : Except Violation Span :=
  if h : lo ≤ hi then .ok ⟨lo, hi, h⟩ else .error (.reversedSpan lo hi)

def isDummy (s : Span) : Bool := decide (s = dummy)

def length (s : Span) : Nat := s.hi.toNat - s.lo.toNat

def isEmpty (s : Span) : Bool := s.length == 0

def text (s : Span) : String :=
  if s.isDummy then "<synthesized>" else toString s.lo.toNat ++ ".." ++ toString s.hi.toNat

end Span

/-! ### Kinds -/

inductive UnaryOperator where
  | minus
  | plus
  | exclamation
deriving DecidableEq, Repr

def UnaryOperator.text : UnaryOperator → String
  | .minus => "-"
  | .plus => "+"
  | .exclamation => "!"

/-- What a node is.  The layout of its children is written beside each kind. -/
inductive Kind where
  /-- statements -/
  | sourceFile
  /-- statements -/
  | block
  /-- variable declarations -/
  | variableStatement
  /-- an identifier or a pattern, then perhaps an initializer -/
  | variableDeclaration
  /-- binding elements -/
  | objectBindingPattern
  /-- binding elements -/
  | arrayBindingPattern
  /-- a property name iff `propertyName`, the bound name, then perhaps an initializer -/
  | bindingElement (propertyName : Bool)
  /-- one expression -/
  | expressionStatement
  /-- perhaps one expression -/
  | returnStatement
  /-- the callee, then the arguments -/
  | callExpression
  /-- an expression and the name of a property of it -/
  | propertyAccessExpression
  /-- perhaps an import clause, then the module specifier -/
  | importDeclaration
  /-- perhaps a default name, then perhaps named imports or a namespace import -/
  | importClause
  /-- import specifiers -/
  | namedImports
  /-- perhaps the exported name, then the local name -/
  | importSpecifier
  /-- the local name -/
  | namespaceImport
  | identifier (name : String)
  | stringLiteral (value : String)
  | numericLiteral (text : String)
  /-- the operand -/
  | prefixUnaryExpression (operator : UnaryOperator)
  | trueKeyword
  | falseKeyword
  | nullKeyword
  /-- the elements -/
  | arrayLiteralExpression
  /-- property assignments -/
  | objectLiteralExpression
  /-- the property name and its value -/
  | propertyAssignment
  /-- one expression -/
  | computedPropertyName
  /-- any construct that the library does not look into -/
  | other (tag : String)
deriving DecidableEq, Repr

/-- The name of a kind; a foreign construct goes by its tag. -/
def Kind.name : Kind → String
  | .sourceFile => "SourceFile"
  | .block => "Block"
  | .variableStatement => "VariableStatement"
  | .variableDeclaration => "VariableDeclaration"
  | .objectBindingPattern => "ObjectBindingPattern"
  | .arrayBindingPattern => "ArrayBindingPattern"
  | .bindingElement _ => "BindingElement"
  | .expressionStatement => "ExpressionStatement"
  | .returnStatement => "ReturnStatement"
  | .callExpression => "CallExpression"
  | .propertyAccessExpression => "PropertyAccessExpression"
  | .importDeclaration => "ImportDeclaration"
  | .importClause => "ImportClause"
  | .namedImports => "NamedImports"
  | .importSpecifier => "ImportSpecifier"
  | .namespaceImport => "NamespaceImport"
  | .identifier _ => "Identifier"
  | .stringLiteral _ => "StringLiteral"
  | .numericLiteral _ => "NumericLiteral"
  | .prefixUnaryExpression _ => "PrefixUnaryExpression"
  | .trueKeyword => "TrueKeyword"
  | .falseKeyword => "FalseKeyword"
  | .nullKeyword => "NullKeyword"
  | .arrayLiteralExpression => "ArrayLiteralExpression"
  | .objectLiteralExpression => "ObjectLiteralExpression"
  | .propertyAssignment => "PropertyAssignment"
  | .computedPropertyName => "ComputedPropertyName"
  | .other tag => tag

/-! ### Nodes -/

structure Node where
  id : NodeId
  kind : Kind
  span : Span
  children : List Node

namespace Node

instance : Inhabited Node := ⟨⟨.dummy, .sourceFile, .dummy, []⟩⟩

/-- A node that stands for no text. -/
def synthesize (kind : Kind) (children : List Node) : Node :=
  ⟨.dummy, kind, .dummy, children⟩

def isSynthesized (n : Node) : Bool := n.id.isDummy

def withChildren (n : Node) (children : List Node) : Node := { n with children := children }

def withSpan (n : Node) (span : Span) : Node := { n with span := span }

/-- The same construct, detached from the text it was read from. -/
def detached (n : Node) : Node := synthesize n.kind n.children

end Node

end Transclude

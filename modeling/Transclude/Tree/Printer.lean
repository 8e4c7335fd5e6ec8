/-
  Transclude/Tree/Printer.lean
  ============================
  **Trees as source text.**

  The text of a node is put together from the texts of its children in a way that
  depends on its kind alone, except that an import looks whether its first child
  is a clause.  A construct that the library does not look into is written as a
  comment that holds its tag, followed by its children.
-/
import Transclude.Tree.Parts
import Transclude.Text.Quoted

namespace Transclude

namespace Printer

/-- The given text with something put before it, or nothing at all. -/
def after (before : String) (text : Option String) : String :=
  match text with
  | some text => before ++ text
  | none => ""

/-- The given text with something put behind it, or nothing at all. -/
def before (text : Option String) (behind : String) : String :=
  match text with
  | some text => text ++ behind
  | none => ""

def commaSeparated (texts : List String) : String := String.intercalate ", " texts

/-- Braces that are kept apart from what they hold, and closed up when empty. -/
def braced (texts : List String) : String :=
  if texts.isEmpty then "\x7b\x7d" else "\x7b " ++ commaSeparated texts ++ " \x7d"

/-- The text of a node of the given kind, from its children and their texts. -/
def compose (kind : Kind) (children : List Node) (texts : List String) : String :=
  match kind with
  | .sourceFile => String.intercalate "\n" texts
  | .block => "\x7b\n" ++ String.intercalate "\n" texts ++ "\n\x7d"
  | .variableStatement => "const " ++ commaSeparated texts ++ ";"
  | .variableDeclaration => texts[0]?.getD "" ++ after " = " texts[1]?
  | .bindingElement false => texts[0]?.getD "" ++ after " = " texts[1]?
  | .bindingElement true =>
    before texts[0]? ": " ++ texts[1]?.getD "" ++ after " = " texts[2]?
  | .objectBindingPattern => "\x7b " ++ commaSeparated texts ++ " \x7d"
  | .arrayBindingPattern => "[" ++ commaSeparated texts ++ "]"
  | .expressionStatement => String.join texts ++ ";"
  | .returnStatement =>
    if texts.isEmpty then "return;" else "return " ++ String.join texts ++ ";"
  | .callExpression => texts.head?.getD "" ++ "(" ++ commaSeparated texts.tail ++ ")"
  | .propertyAccessExpression => String.intercalate "." texts
  | .importDeclaration =>
    let clause := if children.head?.any fun child => decide (child.kind = .importClause)
      then texts.head? else none
    "import " ++ before clause " from " ++ texts.getLast?.getD "" ++ ";"
  | .importClause => commaSeparated texts
  | .namedImports => braced texts
  | .importSpecifier => String.intercalate " as " texts
  | .namespaceImport => "* as " ++ String.join texts
  | .identifier name => name
  | .stringLiteral value => quote value
  | .numericLiteral text => text
  | .prefixUnaryExpression operator => operator.text ++ String.join texts
  | .trueKeyword => "true"
  | .falseKeyword => "false"
  | .nullKeyword => "null"
  | .arrayLiteralExpression => "[" ++ commaSeparated texts ++ "]"
  | .objectLiteralExpression => braced texts
  | .propertyAssignment => String.intercalate ": " texts
  | .computedPropertyName => "[" ++ String.join texts ++ "]"
  | .other tag => "/* " ++ tag ++ " */" ++ String.join (texts.map (" " ++ ·))

end Printer

mutual

/-- The source text of a tree. -/
def Node.print : Node → String
  | ⟨_, kind, _, children⟩ => Printer.compose kind children (printAll children)

/-- The source texts of trees, one by one. -/
def printAll : List Node → List String
  | [] => []
  | n :: rest => n.print :: printAll rest

end

end Transclude

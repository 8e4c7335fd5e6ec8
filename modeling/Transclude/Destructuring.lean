/-
  Transclude/Destructuring.lean
  =============================
  **Which keys a pattern reads.**

  A constant that is declared by an object pattern can only ever show the members
  that the pattern names, so the others need not be written out.
-/
import Transclude.Json.Value
import Transclude.Tree.Parts
import Transclude.Tree.Traversal

namespace Transclude

/-- One element of an object pattern, as far as its names are plain identifiers. -/
structure Binding where
  property : Option String
  name : Option String
deriving DecidableEq, Repr

/-- The key that an element reads, if it is known. -/
def Binding.key? (b : Binding) : Option String := b.property <|> b.name

def Binding.ofNode (element : Node) : Binding :=
  ⟨element.propertyName?.bind Node.identifier?, element.boundName?.bind Node.identifier?⟩

/-- The elements of an object pattern, in order. -/
structure Pattern where
  bindings : List Binding
deriving DecidableEq, Repr

namespace Pattern

def ofNode? (pattern : Node) : Option Pattern :=
  if pattern.kind = .objectBindingPattern then some ⟨pattern.children.map Binding.ofNode⟩
  else none

/-- The pattern that takes a node's value apart: the one that a declaration binds,
    for the node that initializes it. -/
def ofSlot? (slot : Option Slot) : Option Pattern :=
  match slot with
  | none => none
  | some slot =>
    if slot.parent.kind = .variableDeclaration ∧ slot.index = 1 then
      slot.parent.declarationName?.bind ofNode?
    else none

def keys (p : Pattern) : List String := p.bindings.filterMap Binding.key?

/-- The members that a pattern reads, in the order in which it first reads them. -/
def restrict (p : Pattern) (members : Json.Members) : Json.Members :=
  Json.Members.ofList
    (p.keys.filterMap fun key => (members.lookup key).map fun value => (key, value))

end Pattern

end Transclude

/-
  Transclude/Tree/Traversal.lean
  ==============================
  **Going through a tree from the root down, and changing it on the way.**

  A visitor is asked about each node before the nodes below it are looked at.  It
  lets the traversal go on into the children, or settles the node: keeps it as it
  is, puts another tree in its place, or removes it.  Nothing below a settled node
  is visited, and neither is a tree that was put in.

  A node below which nothing changed is kept, not rebuilt; the outcome tells the
  two apart, so a caller knows whether there was anything to do.  The visitor works
  in any monad and always sees nodes and their parents as they were.
-/
import Transclude.Tree.Basic

namespace Transclude

/-- Where a node stands: its parent and its place among the children. -/
structure Slot where
  parent : Node
  index : Nat

/-- What a visitor wants done with a node. -/
inductive Verdict where
  | descend
  | keep
  | replace (replacement : Node)
  | remove

/-- What became of a node. -/
inductive Outcome where
  | kept
  | changed (result : Node)
  | removed

/-- What became of the children of a node: those that are left, and whether that is
    any different from before. -/
structure Remaining where
  nodes : List Node
  changed : Bool

namespace Remaining

def none : Remaining := ⟨[], false⟩

/-- Puts what became of a node before what became of the children after it. -/
def add (node : Node) (outcome : Outcome) (rest : Remaining) : Remaining :=
  match outcome with
  | .kept => ⟨node :: rest.nodes, rest.changed⟩
  | .changed result => ⟨result :: rest.nodes, true⟩
  | .removed => ⟨rest.nodes, true⟩

/-- What became of a node that was gone into, by what became of its children. -/
def close (node : Node) (rest : Remaining) : Outcome :=
  if rest.changed then .changed (node.withChildren rest.nodes) else .kept

end Remaining

/-- Asks about a node, given where it stands (the root stands nowhere). -/
abbrev Visitor (m : Type → Type) := Option Slot → Node → m Verdict

namespace Visitor

/-- The visitor that asks one function about calls and another about imports, and
    passes by all other nodes. -/
def byKind {m : Type → Type} [Monad m] (call declaration : Visitor m) : Visitor m :=
  fun slot node =>
    match node.kind with
    | .callExpression => call slot node
    | .importDeclaration => declaration slot node
    | _ => pure .descend

end Visitor

mutual

/-- Goes through a tree and changes it as a visitor says. -/
def Node.traverse {m : Type → Type} [Monad m] (visit : Visitor m) (slot : Option Slot) :
    Node → m Outcome
  | ⟨id, kind, span, children⟩ => do
    match ← visit slot ⟨id, kind, span, children⟩ with
    | .keep => pure .kept
    | .replace replacement => pure (.changed replacement)
    | .remove => pure .removed
    | .descend =>
      let rest ← traverseAll visit ⟨id, kind, span, children⟩ 0 children
      pure (rest.close ⟨id, kind, span, children⟩)

/-- Goes through the children of a node from the one at `index` on. -/
def traverseAll {m : Type → Type} [Monad m] (visit : Visitor m) (parent : Node) (index : Nat) :
    List Node → m Remaining
  | [] => pure .none
  | n :: rest => do
    let outcome ← n.traverse visit (some ⟨parent, index⟩)
    let rest ← traverseAll visit parent (index + 1) rest
    pure (rest.add n outcome)

end

end Transclude

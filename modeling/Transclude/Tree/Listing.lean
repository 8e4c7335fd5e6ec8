/-
  Transclude/Tree/Listing.lean
  ============================
  **Trees as flat lists.**

  The preorder listing of a tree has one entry per node, with the node's depth.
  Depths make it a faithful picture: the descendants of an entry are exactly the
  run of deeper entries that follows it, so replacing or deleting a subtree is
  replacing or deleting a contiguous segment.
-/
import Transclude.Tree.Basic

namespace Transclude

/-- One node of a listing: all that a node has, with its depth for its children. -/
structure Entry where
  depth : Nat
  kind : Kind
  id : NodeId
  span : Span
deriving DecidableEq

mutual

/-- The nodes of a tree in preorder, for a root at the given depth. -/
def Node.listing (depth : Nat) : Node → List Entry
  | ⟨id, kind, span, children⟩ => ⟨depth, kind, id, span⟩ :: listingAll (depth + 1) children

/-- The listings of sibling trees, one after the other. -/
def listingAll (depth : Nat) : List Node → List Entry
  | [] => []
  | n :: rest => n.listing depth ++ listingAll depth rest

end

mutual

/-- A node and all nodes below it, in preorder. -/
def Node.subtrees : Node → List Node
  | ⟨id, kind, span, children⟩ => ⟨id, kind, span, children⟩ :: subtreesAll children

def subtreesAll : List Node → List Node
  | [] => []
  | n :: rest => n.subtrees ++ subtreesAll rest

end

mutual

/-- The number of nodes of a tree. -/
def Node.size : Node → Nat
  | ⟨_, _, _, children⟩ => 1 + sizeAll children

def sizeAll : List Node → Nat
  | [] => 0
  | n :: rest => n.size + sizeAll rest

end

end Transclude

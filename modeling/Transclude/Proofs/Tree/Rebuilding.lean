/-
  Transclude/Proofs/Tree/Rebuilding.lean
  ======================================
  **Keeping nodes cannot be seen in the result.**

  A traversal keeps every node below which nothing changed.  The plain way to go
  through a tree has no such rule: it builds every node that it goes into anew,
  around what is left of its children (`Node.rebuild`).  For every visitor, in
  every monad, the two ask the same questions in the same order and leave equal
  trees (`Node.nodes_traverse`).

  The flag of a traversal can be relied on only for rows of children that a
  traversal has produced, so the two are compared together with whatever is done
  next.
-/
import Transclude.Proofs.Tree.Plan

namespace Transclude

variable {m : Type → Type} [Monad m]

mutual

/-- Goes through a tree as a visitor says and builds every node that is gone into anew; the
    result is what stands in the place of the tree. -/
def Node.rebuild (visit : Visitor m) (slot : Option Slot) : Node → m (List Node)
  | ⟨id, kind, span, children⟩ => do
    match ← visit slot ⟨id, kind, span, children⟩ with
    | .keep => pure [⟨id, kind, span, children⟩]
    | .replace replacement => pure [replacement]
    | .remove => pure []
    | .descend =>
      let rest ← rebuildAll visit ⟨id, kind, span, children⟩ 0 children
      pure [⟨id, kind, span, rest⟩]

def rebuildAll (visit : Visitor m) (parent : Node) (index : Nat) : List Node → m (List Node)
  | [] => pure []
  | n :: rest => do
    let first ← n.rebuild visit (some ⟨parent, index⟩)
    let rest ← rebuildAll visit parent (index + 1) rest
    pure (first ++ rest)

end

variable [LawfulMonad m] {β : Type}

mutual

theorem Node.traverse_bind (visit : Visitor m) (slot : Option Slot) :
    ∀ (n : Node) (next : Outcome → m β) (next' : List Node → m β),
      (∀ outcome, next outcome = next' (outcome.nodes n)) →
      n.traverse visit slot >>= next = n.rebuild visit slot >>= next'
  | ⟨id, kind, span, children⟩, next, next', hnext => by
    rw [Node.traverse, Node.rebuild, bind_assoc, bind_assoc]
    congr 1
    funext verdict
    cases verdict with
    | keep => simp only [pure_bind, hnext, Outcome.nodes]
    | replace replacement => simp only [pure_bind, hnext, Outcome.nodes]
    | remove => simp only [pure_bind, hnext, Outcome.nodes]
    | descend =>
      simp only [bind_assoc, pure_bind]
      apply traverseAll_bind
      intro rest hrest
      rw [hnext, Remaining.nodes_close hrest]
      rfl

theorem traverseAll_bind (visit : Visitor m) (parent : Node) (index : Nat) :
    ∀ (nodes : List Node) (next : Remaining → m β) (next' : List Node → m β),
      (∀ rest, (rest.changed = false → rest.nodes = nodes) → next rest = next' rest.nodes) →
      traverseAll visit parent index nodes >>= next =
        rebuildAll visit parent index nodes >>= next'
  | [], next, next', hnext => by
    rw [traverseAll, rebuildAll, pure_bind, pure_bind]
    exact hnext .none fun _ => rfl
  | n :: rest, next, next', hnext => by
    rw [traverseAll, rebuildAll]
    simp only [bind_assoc, pure_bind]
    apply Node.traverse_bind
    intro outcome
    apply traverseAll_bind
    intro remaining hremaining
    rw [← Remaining.nodes_add]
    apply hnext
    intro hunchanged
    obtain ⟨rfl, hunchanged⟩ := Remaining.changed_add hunchanged
    rw [Remaining.nodes_add, hremaining hunchanged]
    rfl

end

/-- **Keeping nodes cannot be seen in the result.** -/
theorem Node.nodes_traverse (visit : Visitor m) (slot : Option Slot) (n : Node) :
    Outcome.nodes n <$> n.traverse visit slot = n.rebuild visit slot := by
  have hsame := Node.traverse_bind visit slot n (fun outcome => pure (outcome.nodes n)) pure
    (fun _ => rfl)
  rwa [bind_pure, bind_pure_comp] at hsame

end Transclude

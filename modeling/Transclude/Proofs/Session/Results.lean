/-
  Transclude/Proofs/Session/Results.lean
  ======================================
  **What holds of every node of a result.**

  The nodes of a result come from two sources: the literals that calls stand for,
  and nodes of the file that were gone into and are built around what is left of
  their children.  A property that both have, all nodes of the result have
  (`forall_rebuilt`); that is how every invariant of results is shown.
-/
import Transclude.Proofs.Session.Course

namespace Transclude.Session

variable {session : Session} {disk : Disk} {recording : Recording} {file : SourceFile}

/-- A property of nodes that results have everywhere, if all sites of the tree are fine: it
    holds in the literals of calls and of every node that is rebuilt. -/
structure HoldsInResults (session : Session) (disk : Disk) (recording : Recording)
    (file : SourceFile) (Fine : Site → Prop) (P : Node → Prop) : Prop where
  sound : ∀ s, Fine s → failure? session.program session.marker disk recording file s = none
  literal : ∀ {slot : Option Slot} {call literal : Node} {function : String},
    Expansion.StandsFor disk file slot call function literal → ∀ m ∈ literal.subtrees, P m
  rebuilt : ∀ (above : List Slot) (n : Node),
    Site.clear session.marker session.program ⟨above, n⟩ = true → (∀ s ∈ n.sites above, Fine s) →
    session.marker.marks session.program n = false →
    P (n.withChildren (rebuiltAll (plan session.program session.marker disk file) n 0 n.children))

section Everywhere

variable {P : Node → Prop} {Fine : Site → Prop}

mutual

/-- What holds of the nodes of literals and of rebuilt nodes holds of all nodes of a
    result. -/
theorem forall_rebuilt (hP : HoldsInResults session disk recording file Fine P)
    (above : List Slot) :
    ∀ n : Node, Site.clear session.marker session.program ⟨above, n⟩ = true →
      (∀ s ∈ n.sites above, Fine s) →
      ∀ m ∈ subtreesAll (n.rebuilt (plan session.program session.marker disk file) above.head?), P m
  | ⟨id, kind, span, children⟩, hclear, hfine => by
    have hself : Fine ⟨above, ⟨id, kind, span, children⟩⟩ :=
      hfine _ (Node.self_mem_sites above _)
    rcases rebuilt_cases hclear (hP.sound _ hself) with
      ⟨function, literal, -, hstands, hrebuilt⟩ | ⟨-, hrebuilt⟩ | ⟨hunmarked, hrebuilt⟩
    · rw [hrebuilt, subtreesAll_singleton]
      exact hP.literal hstands
    · intro m hm
      rw [hrebuilt, subtreesAll] at hm
      exact absurd hm List.not_mem_nil
    · have hbelow := forall_rebuiltAll hP above ⟨id, kind, span, children⟩ 0 children
        (clear_below hclear hunmarked)
        (fun s hs => hfine s (Node.mem_sites_of_below hs))
      intro m hm
      rw [hrebuilt, subtreesAll_singleton, Node.subtrees_eq] at hm
      rcases List.mem_cons.mp hm with rfl | hm
      · exact hP.rebuilt above _ hclear hfine hunmarked
      · exact hbelow m hm

theorem forall_rebuiltAll (hP : HoldsInResults session disk recording file Fine P)
    (above : List Slot) (parent : Node) :
    ∀ (index : Nat) (nodes : List Node),
      (∀ (n : Node) (i : Nat),
        Site.clear session.marker session.program ⟨⟨parent, i⟩ :: above, n⟩ = true) →
      (∀ s ∈ sitesAll above parent index nodes, Fine s) →
      ∀ m ∈ subtreesAll
        (rebuiltAll (plan session.program session.marker disk file) parent index nodes), P m
  | index, [], _, _ => by
    intro m hm
    rw [rebuiltAll, subtreesAll] at hm
    exact absurd hm List.not_mem_nil
  | index, n :: nodes, hclear, hfine => by
    rw [sitesAll] at hfine
    have hhead := forall_rebuilt hP (⟨parent, index⟩ :: above) n (hclear n index)
      (fun s hs => hfine s (List.mem_append_left _ hs))
    have htail := forall_rebuiltAll hP above parent (index + 1) nodes hclear
      (fun s hs => hfine s (List.mem_append_right _ hs))
    intro m hm
    rw [rebuiltAll, mem_subtreesAll_append] at hm
    rcases hm with hm | hm
    · exact hhead m hm
    · exact htail m hm

end

end Everywhere

/-! ### The nodes of a revised file -/

theorem mem_subtrees_revise {plan : Plan} {m : Node}
    (h : m ∈ (file.revise (file.root.outcome plan none)).file.root.subtrees) :
    m ∈ subtreesAll (file.root.rebuilt plan none) ∨
      m = file.root.withChildren [] ∧ file.root.outcome plan none = .removed := by
  by_cases hremoved : file.root.outcome plan none = .removed
  · right
    rw [hremoved] at h
    simp only [SourceFile.revise, SourceFile.withRoot, Node.subtrees_eq, Node.withChildren,
      subtreesAll, List.mem_singleton] at h
    exact ⟨h, hremoved⟩
  · left
    rw [← Node.nodes_outcome, nodes_eq_revise file hremoved, subtreesAll_singleton]
    exact h

end Transclude.Session

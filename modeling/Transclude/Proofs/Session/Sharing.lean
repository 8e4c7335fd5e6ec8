/-
  Transclude/Proofs/Session/Sharing.lean
  ======================================
  **What is kept is exactly what had nothing to do.**

  A traversal comes to a node at a clear site with the tally that it has by then, and
  leaves the outcome of the plan behind (`run_traverse_of_sound`).  A node that was
  gone into is kept iff nothing below it is marked, visited or not: a marked node is
  never kept where nothing fails, and what is kept has kept children
  (`kept_iff_unmarked`).

  For a whole file that gives two tests for having had nothing to do, both of which
  look at less than the tree: that the root is the same, and that nothing was
  counted.
-/
import Mathlib.Tactic.TFAE
import Transclude.Proofs.Session.Idempotence
import Transclude.Proofs.Tree.Rebuilding
import Transclude.Proofs.Tree.Visits

namespace Transclude

theorem Remaining.outcome_of_unchanged (plan : Plan) (parent : Node) {child : Node} :
    ∀ (nodes : List Node) (index i : Nat), (remaining plan parent index nodes).changed = false →
      nodes[i]? = some child → child.outcome plan (some ⟨parent, index + i⟩) = .kept := by
  intro nodes
  induction nodes with
  | nil =>
    intro index i _ hi
    cases hi
  | cons n rest ih =>
    intro index i h hi
    rw [remaining_cons] at h
    obtain ⟨hkept, hrest⟩ := Remaining.changed_add h
    cases i with
    | zero =>
      obtain rfl : n = child := Option.some.inj hi
      exact hkept
    | succ i =>
      rw [Nat.add_comm i, ← Nat.add_assoc]
      exact ih (index + 1) i hrest hi

/-- A node that was gone into and kept has kept children. -/
theorem Node.outcome_child_of_kept {plan : Plan} {slot : Option Slot} {n child : Node} {i : Nat}
    (hplan : plan slot n = .descend) (hkept : n.outcome plan slot = .kept)
    (h : n.children[i]? = some child) : child.outcome plan (some ⟨n, i⟩) = .kept := by
  rw [Node.outcome_eq, hplan] at hkept
  have hunchanged : (remaining plan n 0 n.children).changed = false := by
    cases hchanged : (remaining plan n 0 n.children).changed with
    | false => rfl
    | true => simp only [Remaining.close, hchanged, if_true, reduceCtorEq] at hkept
  have hchild := Remaining.outcome_of_unchanged plan n n.children 0 i hunchanged h
  rwa [Nat.zero_add] at hchild

namespace Session

variable {session : Session} {disk : Disk} {recording : Recording} {file : SourceFile} {s : Site}

/-! ### Visits to the nodes of a file -/

/-- **What a traversal does when it comes to a node.** -/
theorem run_traverse_of_sound (hclear : s.clear session.marker session.program = true)
    (hsound : ∀ t ∈ s.node.sites s.above,
      failure? session.program session.marker disk recording file t = none) (tally : Tally) :
    (s.node.traverse (visit session.program session.marker disk recording file) s.slot?).run tally =
      (.ok (s.node.outcome (plan session.program session.marker disk file) s.slot?),
        tally.after session.marker session.program (s.node.sites s.above)) := by
  have hopen : (plan session.program session.marker disk file).opens s.above = true := by
    have hreached := reached_plan session.program session.marker disk file s
    rw [hclear] at hreached
    exact hreached
  have htraverse := Node.traverse_plan
    (visit_eq session.program session.marker disk recording file) s.above hopen s.node
  rw [Site.slot?, htraverse, Result.run_bind, run_perform_of_sound _ hsound tally]
  rfl

theorem outcome_ne_kept_of_marked (hclear : s.clear session.marker session.program = true)
    (hsound : failure? session.program session.marker disk recording file s = none)
    (hmarked : session.marker.marks session.program s.node = true) :
    s.node.outcome (plan session.program session.marker disk file) s.slot? ≠ .kept := by
  rw [Node.outcome_eq]
  cases hcalled : session.marker.called? session.program s.node with
  | some function =>
    obtain ⟨literal, -, hplan⟩ := plan_of_call ⟨hclear, hcalled⟩ hsound
    rw [hplan]
    exact Outcome.noConfusion
  | none =>
    have himported : session.marker.isImported session.program s.node = true := by
      simpa only [Marker.marks, hcalled, Option.isSome_none, Bool.false_or] using hmarked
    rw [plan_of_isImported himported]
    exact Outcome.noConfusion

/-- The traversal comes to a site, nothing fails at it or below it, and its node is kept. -/
structure Kept (session : Session) (disk : Disk) (recording : Recording) (file : SourceFile)
    (s : Site) : Prop where
  clear : s.clear session.marker session.program = true
  sound : ∀ t ∈ s.node.sites s.above,
    failure? session.program session.marker disk recording file t = none
  kept : s.node.outcome (plan session.program session.marker disk file) s.slot? = .kept

theorem Kept.unmarked (h : session.Kept disk recording file s) :
    session.marker.marks session.program s.node = false := by
  cases hmarked : session.marker.marks session.program s.node with
  | false => rfl
  | true =>
    have hself := h.sound s (Node.self_mem_sites _ _)
    exact absurd h.kept (outcome_ne_kept_of_marked h.clear hself hmarked)

theorem Kept.child (h : session.Kept disk recording file s) {i : Nat} {child : Node}
    (hchild : s.node.children[i]? = some child) :
    session.Kept disk recording file ⟨⟨s.node, i⟩ :: s.above, child⟩ where
  clear := clear_below h.clear h.unmarked child i
  sound t ht := h.sound t (Node.sites_child_subset s.above hchild ht)
  kept := Node.outcome_child_of_kept (plan_of_unmarked h.unmarked) h.kept hchild

/-- **A node is kept iff nothing in it is marked.** -/
theorem kept_iff_unmarked (hclear : s.clear session.marker session.program = true)
    (hsound : ∀ t ∈ s.node.sites s.above,
      failure? session.program session.marker disk recording file t = none) :
    s.node.outcome (plan session.program session.marker disk file) s.slot? = .kept ↔
      ∀ n ∈ s.node.subtrees, session.marker.marks session.program n = false := by
  constructor
  · intro hkept
    exact Node.forall_subtrees (fun _ h => Kept.unmarked h) (fun _ _ _ h => Kept.child h) s.node
      s.above ⟨hclear, hsound, hkept⟩
  · intro hunmarked
    apply Node.outcome_eq_kept
    intro n hn slot
    exact plan_of_unmarked (hunmarked n hn)

/-! ### Nothing counted, nothing marked -/

/-- A clear site in whose tree no clear site is marked. -/
structure Idle (session : Session) (s : Site) : Prop where
  clear : s.clear session.marker session.program = true
  unmarked : ∀ t ∈ s.node.sites s.above, t.clear session.marker session.program = true →
    session.marker.marks session.program t.node = false

theorem Idle.self (h : session.Idle s) : session.marker.marks session.program s.node = false :=
  h.unmarked s (Node.self_mem_sites _ _) h.clear

theorem Idle.child (h : session.Idle s) {i : Nat} {child : Node}
    (hchild : s.node.children[i]? = some child) :
    session.Idle ⟨⟨s.node, i⟩ :: s.above, child⟩ where
  clear := clear_below h.clear h.self child i
  unmarked t ht := h.unmarked t (Node.sites_child_subset s.above hchild ht)

/-- A tree in which no clear site is marked has no marked node at all. -/
theorem Idle.subtrees (h : session.Idle s) :
    ∀ n ∈ s.node.subtrees, session.marker.marks session.program n = false :=
  Node.forall_subtrees (fun _ h => Idle.self h) (fun _ _ _ h => Idle.child h) s.node s.above h

theorem unmarked_of_uncounted {marker : Marker} {program : Program} {sites : List Site}
    {tally : Tally} (h : tally.after marker program sites = tally) (hs : s ∈ sites)
    (hclear : s.clear marker program = true) : marker.marks program s.node = false := by
  have hcalls : countCalls marker program sites = 0 := by
    have hinlined := congrArg Tally.inlined h
    simp only [Tally.after] at hinlined
    omega
  have himports : countImports marker program sites = 0 := by
    have hpruned := congrArg Tally.pruned h
    simp only [Tally.after] at hpruned
    omega
  have hcall := List.countP_eq_zero.mp hcalls s hs
  have himport := List.countP_eq_zero.mp himports s hs
  simp only [hclear, Bool.true_and, Bool.not_eq_true] at hcall himport
  rw [Marker.marks, hcall, himport]
  rfl

/-! ### Whole files -/

theorem run_rebuild {n : Node} {slot : Option Slot} {visit : Visitor Counting} {outcome : Outcome}
    {tally after : Tally} (h : (n.traverse visit slot).run tally = (.ok outcome, after)) :
    (n.rebuild visit slot).run tally = (.ok (outcome.nodes n), after) := by
  rw [← Node.nodes_traverse, ← bind_pure_comp, Result.run_bind, h]
  rfl

/-- **Sharing is exact.**  No node of a file is marked, visited or not, iff the file is
    transformed and has the very same tree afterwards, iff it is transformed and nothing is
    counted.  Where a file is transformed, each node that is gone into is kept iff none in it is
    marked, and what stands in its place is what would stand there if every node that is gone
    into were built anew; so it is for the whole file. -/
theorem transform_shares (session : Session) (disk : Disk) (recording : Recording)
    (file : SourceFile) :
    List.TFAE [
      ∀ n ∈ file.root.subtrees, session.marker.marks session.program n = false,
      ∃ after, session.transform disk recording file = (.ok ⟨file, true⟩, after),
      ∃ out, session.transform disk recording file = (.ok out, session)]
    ∧ ∀ out after, session.transform disk recording file = (.ok out, after) →
        (∀ s ∈ file.root.sites [], s.clear session.marker session.program = true →
          session.marker.marks session.program s.node = false → ∀ tally, ∃ outcome tally',
            (s.node.traverse (visit session.program session.marker disk
                (recording.enter (.transforming file.name)) file) s.slot?).run tally =
              (.ok outcome, tally')
            ∧ (outcome = .kept ↔
                ∀ n ∈ s.node.subtrees, session.marker.marks session.program n = false)
            ∧ (s.node.rebuild (visit session.program session.marker disk
                (recording.enter (.transforming file.name)) file) s.slot?).run tally =
              (.ok (outcome.nodes s.node), tally'))
        ∧ ∃ nodes,
            (file.root.rebuild (visit session.program session.marker disk
                (recording.enter (.transforming file.name)) file) none).run session.tally =
              (.ok nodes, after.tally)
            ∧ out.file.root = nodes.head?.getD (file.root.withChildren []) := by
  constructor
  · tfae_have 1 → 2 := by
      intro hunmarked
      exact ⟨session, transform_of_spent session disk recording file hunmarked⟩
    tfae_have 1 → 3 := by
      intro hunmarked
      exact ⟨_, transform_of_spent session disk recording file hunmarked⟩
    tfae_have 2 → 1 := by
      rintro ⟨after, h⟩
      obtain ⟨hsound, hout, -⟩ := transform_eq_ok h
      have hkept : file.root.outcome (plan session.program session.marker disk file) none = .kept := by
        have huntouched := congrArg Revision.untouched hout
        cases houtcome : file.root.outcome (plan session.program session.marker disk file) none with
        | kept => rfl
        | changed root => simp [houtcome, SourceFile.revise] at huntouched
        | removed => simp [houtcome, SourceFile.revise] at huntouched
      exact (kept_iff_unmarked (s := ⟨[], file.root⟩) rfl hsound).mp hkept
    tfae_have 3 → 1 := by
      rintro ⟨out, h⟩
      obtain ⟨-, -, hafter⟩ := transform_eq_ok h
      have htally := (congrArg Session.tally hafter).symm
      have hidle : session.Idle ⟨[], file.root⟩ :=
        ⟨rfl, fun t ht hclear => unmarked_of_uncounted htally ht hclear⟩
      exact hidle.subtrees
    tfae_finish
  · intro out after h
    obtain ⟨hsound, rfl, rfl⟩ := transform_eq_ok h
    constructor
    · intro s hs hclear _ tally
      have hbelow : ∀ t ∈ s.node.sites s.above, failure? session.program session.marker disk
          (recording.enter (.transforming file.name)) file t = none :=
        fun t ht => hsound t (Node.sites_subset [] file.root s hs ht)
      have hrun := run_traverse_of_sound hclear hbelow tally
      exact ⟨_, _, hrun, kept_iff_unmarked hclear hbelow, run_rebuild hrun⟩
    · have hrun := run_traverse_of_sound (s := ⟨[], file.root⟩) rfl hsound session.tally
      refine ⟨_, run_rebuild hrun, ?_⟩
      rw [SourceFile.file_revise]
      rfl

end Session

end Transclude

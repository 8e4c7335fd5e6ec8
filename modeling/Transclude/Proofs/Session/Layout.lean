/-
  Transclude/Proofs/Session/Layout.lean
  =====================================
  **A transformation keeps the layout of files.**

  A call stands where an expression is asked for, and the literal that takes its
  place is a well-formed expression.  An import that goes leaves no gap, since no
  layout counts on one.  Every other child stays with its kind.  So the kinds of the
  children of a node that is rebuilt have turned in the ways that its layout allows
  (`turned_rebuiltAll`), and each role is still filled by what fills it.
-/
import Transclude.Proofs.Session.Results
import Transclude.Proofs.Tree.Layout

namespace Transclude

/-- A file whose tree has the layout of files. -/
structure SourceFile.WellFormed (file : SourceFile) : Prop where
  kind : file.root.kind = .sourceFile
  tree : file.root.WellFormed

theorem Expansion.StandsFor.wellFormed {disk : Disk} {file : SourceFile} {slot : Option Slot}
    {call literal : Node} {function : String}
    (h : StandsFor disk file slot call function literal) :
    literal.WellFormed ∧ Role.expression.admits literal.kind = true := by
  cases h with
  | file => exact ⟨Literal.wellFormed_leaf rfl, rfl⟩
  | json _ _ _ _ hencoded => exact Literal.wellFormed_ofValue _ _ hencoded

namespace Session

variable {session : Session} {disk : Disk} {recording : Recording} {file : SourceFile}

theorem turned_rebuiltAll (above : List Slot) (parent : Node) (index : Nat) (nodes : List Node)
    (hclear : ∀ (n : Node) (i : Nat),
      Site.clear session.marker session.program ⟨⟨parent, i⟩ :: above, n⟩ = true)
    (hsound : ∀ s ∈ sitesAll above parent index nodes,
      failure? session.program session.marker disk recording file s = none) :
    Turned (nodes.map Node.kind)
      ((rebuiltAll (plan session.program session.marker disk file) parent index nodes).map
        Node.kind) := by
  induction nodes generalizing index with
  | nil =>
    rw [rebuiltAll]
    exact .nil
  | cons n nodes ih =>
    rw [sitesAll] at hsound
    have hself := hsound ⟨⟨parent, index⟩ :: above, n⟩
      (List.mem_append_left _ (Node.self_mem_sites _ n))
    have hrest := ih (index + 1) (fun s hs => hsound s (List.mem_append_right _ hs))
    have hcases := rebuilt_cases (hclear n index) hself
    rw [List.head?_cons] at hcases
    rw [rebuiltAll, List.map_append, List.map_cons]
    rcases hcases with
      ⟨function, literal, hcalled, hstands, hrebuilt⟩ | ⟨himported, hrebuilt⟩ | ⟨-, hrebuilt⟩
    · rw [hrebuilt, Marker.kind_of_called? hcalled]
      exact .replaced hstands.wellFormed.2 hrest
    · rw [hrebuilt, Marker.kind_of_isImported himported]
      exact .removed hrest
    · rw [hrebuilt]
      exact .kept n.kind hrest

theorem laidOut_rebuilt
    (hsound : ∀ s ∈ file.root.sites [],
      failure? session.program session.marker disk recording file s = none)
    (hwell : file.root.WellFormed) :
    ∀ m ∈ subtreesAll
        (file.root.rebuilt (plan session.program session.marker disk file) none), m.LaidOut := by
  have hlaid : HoldsInResults session disk recording file
      (fun s => failure? session.program session.marker disk recording file s = none
        ∧ s.node.LaidOut) Node.LaidOut := by
    refine ⟨fun _ h => h.1, fun hstands => hstands.wellFormed.1, ?_⟩
    intro above n hclear hfine hunmarked
    have hself := (hfine ⟨above, n⟩ (Node.self_mem_sites above n)).2
    have hturned := turned_rebuiltAll above n 0 n.children (clear_below hclear hunmarked)
      (fun s hs => (hfine s (Node.mem_sites_of_below hs)).1)
    exact fits_of_turned (fun _ => Kind.not_admits_import) _ _ hturned hself
  exact forall_rebuilt hlaid [] file.root rfl
    (fun s hs => ⟨hsound s hs, hwell s.node (Site.node_mem_subtrees hs)⟩)

/-- **A transformation keeps the layout.**  If a well-formed file is transformed, the result is
    a well-formed file. -/
theorem wellFormed_transform {after : Session} {out : Revision} (hfile : file.WellFormed)
    (h : session.transform disk recording file = (.ok out, after)) : out.file.WellFormed := by
  obtain ⟨hsound, rfl, -⟩ := transform_eq_ok h
  -- the root is neither a call nor an import, so it is there still
  have hunmarked : session.marker.marks session.program file.root = false :=
    Marker.unmarked_of_kind (by simp [hfile.kind]) (by simp [hfile.kind])
  have hpresent := outcome_root_ne_removed disk file (Marker.isImported_of_unmarked hunmarked)
  have hrebuilt := Node.nodes_outcome (plan session.program session.marker disk file) none file.root
  rw [nodes_eq_revise file hpresent] at hrebuilt
  constructor
  · rw [Node.rebuilt_eq, plan_of_unmarked hunmarked] at hrebuilt
    rw [List.singleton_inj.mp hrebuilt]
    exact hfile.kind
  · intro m hm
    apply laidOut_rebuilt hsound hfile.tree
    rw [← hrebuilt, subtreesAll_singleton]
    exact hm

theorem wellFormed_transform_small :
    Small.file.WellFormed ∧ Small.session.transform Small.disk none Small.file =
      (.ok ⟨Small.result, false⟩, { Small.session with tally := ⟨1, 1⟩ }) ∧
    Small.result.WellFormed := by
  have hfile : Small.file.WellFormed := ⟨rfl, by decide⟩
  have h : Small.session.transform Small.disk none Small.file =
      (.ok ⟨Small.result, false⟩, { Small.session with tally := ⟨1, 1⟩ }) := by rfl
  exact ⟨hfile, h, wellFormed_transform hfile h⟩

end Session

end Transclude

/-
  Transclude/Proofs/Session/Exactness.lean
  ========================================
  **A transformation changes what it has to and nothing else.**

  The result of a transformation that succeeds is described on the flat listing.
  `Edited` goes over the sites of a file from left to right.  A topmost import is
  taken out with its whole segment, that is with the run of sites below it; the
  segment of a topmost call gives way to the listing of the literal that the call
  stands for, at the depth of the call; every other entry is copied.  There is no
  rule that loses, adds, moves or alters an entry otherwise.

  The recursion goes over the tree, and the description over the list, so the
  induction says of a node what is edited from its segment on, whatever follows
  (`edited_rebuilt`).
-/
import Transclude.Proofs.Session.Course

namespace Transclude

namespace Session

/-- What the listing of a file becomes: segments of topmost imports go, segments of topmost
    calls give way to the listings of literals, and all other entries stay. -/
inductive Edited (session : Session) (disk : Disk) (file : SourceFile) :
    List Site → List Entry → Prop
  | nil : Edited session disk file [] []
  | kept {s : Site} {rest : List Site} {entries : List Entry}
      (clear : s.clear session.marker session.program = true)
      (unmarked : session.marker.marks session.program s.node = false)
      (others : Edited session disk file rest entries) :
      Edited session disk file (s :: rest) (s.entry :: entries)
  | pruned {s : Site} {rest : List Site} {entries : List Entry}
      (clear : s.clear session.marker session.program = true)
      (imported : session.marker.isImported session.program s.node = true)
      (others : Edited session disk file rest entries) :
      Edited session disk file (s.node.sites s.above ++ rest) entries
  | inlined {s : Site} {rest : List Site} {entries : List Entry} {function : String}
      {literal : Node} (call : s.TopmostCall session.marker session.program function)
      (literalOf : Expansion.StandsFor disk file s.slot? s.node function literal)
      (others : Edited session disk file rest entries) :
      Edited session disk file (s.node.sites s.above ++ rest) (literal.listing s.depth ++ entries)

/-! ### The result, from the segment of a node on -/

section Result

variable {session : Session} {disk : Disk} {recording : Recording} {file : SourceFile}

mutual

/-- What stands in the place of a node is what its segment is edited to, whatever the
    sites after it are edited to. -/
theorem edited_rebuilt (above : List Slot) (rest : List Site) (entries : List Entry)
    (hrest : Edited session disk file rest entries) :
    ∀ n : Node, Site.clear session.marker session.program ⟨above, n⟩ = true →
      (∀ s ∈ n.sites above,
        failure? session.program session.marker disk recording file s = none) →
      Edited session disk file (n.sites above ++ rest)
        (listingAll above.length
          (n.rebuilt (plan session.program session.marker disk file) above.head?) ++ entries)
  | ⟨id, kind, span, children⟩, hclear, hsound => by
    have hself := hsound ⟨above, ⟨id, kind, span, children⟩⟩ (Node.self_mem_sites above _)
    rcases rebuilt_cases hclear hself with
      ⟨function, literal, hcalled, hliteral, hrebuilt⟩ | ⟨himported, hrebuilt⟩ |
      ⟨hunmarked, hrebuilt⟩
    · rw [hrebuilt]
      simp only [listingAll, List.append_nil]
      exact .inlined ⟨hclear, hcalled⟩ hliteral hrest
    · rw [hrebuilt]
      simp only [listingAll, List.nil_append]
      exact .pruned (s := ⟨above, ⟨id, kind, span, children⟩⟩) hclear himported hrest
    · have hbelow := edited_rebuiltAll above ⟨id, kind, span, children⟩ rest entries hrest
        0 children (clear_below hclear hunmarked)
        (fun s hs => hsound s (Node.mem_sites_of_below hs))
      rw [hrebuilt, Node.sites, List.cons_append]
      simp only [Node.withChildren, listingAll, Node.listing, List.append_nil, List.cons_append]
      exact .kept (s := ⟨above, ⟨id, kind, span, children⟩⟩) hclear hunmarked hbelow

theorem edited_rebuiltAll (above : List Slot) (parent : Node) (rest : List Site)
    (entries : List Entry) (hrest : Edited session disk file rest entries) :
    ∀ (index : Nat) (nodes : List Node),
      (∀ (n : Node) (i : Nat),
        Site.clear session.marker session.program ⟨⟨parent, i⟩ :: above, n⟩ = true) →
      (∀ s ∈ sitesAll above parent index nodes,
        failure? session.program session.marker disk recording file s = none) →
      Edited session disk file (sitesAll above parent index nodes ++ rest)
        (listingAll (above.length + 1)
          (rebuiltAll (plan session.program session.marker disk file) parent index nodes)
          ++ entries)
  | index, [], _, _ => by
    rw [sitesAll, rebuiltAll, listingAll]
    exact hrest
  | index, n :: nodes, hclear, hsound => by
    rw [sitesAll] at hsound
    have htail := edited_rebuiltAll above parent rest entries hrest (index + 1) nodes hclear
      (fun s hs => hsound s (List.mem_append_right _ hs))
    have hhead := edited_rebuilt (⟨parent, index⟩ :: above) _ _ htail n (hclear n index)
      (fun s hs => hsound s (List.mem_append_left _ hs))
    rw [sitesAll, rebuiltAll, listingAll_append, List.append_assoc, List.append_assoc]
    exact hhead

end

/-- **Exactness of a transformation.**  If a file is transformed, the preorder listing of the
    result is that of the file with the segment of every topmost import taken out and the
    segment of every topmost call replaced by the listing of its literal; name and text of
    the file are as before, and the tally has grown by the topmost calls and imports.  A root
    that is itself taken out, which no well-formed file has, leaves an empty file. -/
theorem listing_transform {after : Session} {out : Revision}
    (h : session.transform disk recording file = (.ok out, after)) :
    (file.root.sites []).map Site.entry = file.root.listing 0 ∧
    (session.marker.isImported session.program file.root = false →
      Edited session disk file (file.root.sites []) (out.file.root.listing 0)) ∧
    (session.marker.isImported session.program file.root = true →
      out.file.root = file.root.withChildren []) ∧
    out.file.name = file.name ∧ out.file.text = file.text ∧
    after = { session with
      tally := session.tally.after session.marker session.program (file.root.sites []) } := by
  obtain ⟨hsound, rfl, hafter⟩ := transform_eq_ok h
  refine ⟨Node.map_entry_sites [] file.root, ?_, ?_, ?_, ?_, hafter⟩
  · intro himported
    have hedited := edited_rebuilt [] [] [] .nil file.root rfl hsound
    rw [List.append_nil, List.append_nil, List.head?_nil, ← Node.nodes_outcome] at hedited
    rw [nodes_eq_revise file (outcome_root_ne_removed disk file himported)] at hedited
    simp only [listingAll, List.append_nil] at hedited
    exact hedited
  · intro himported
    rw [Node.outcome_eq, plan_of_isImported himported]
    rfl
  · cases file.root.outcome (plan session.program session.marker disk file) none <;> rfl
  · cases file.root.outcome (plan session.program session.marker disk file) none <;> rfl

end Result

theorem listing_transform_small :
    Small.session.transform Small.disk none Small.file =
      (.ok ⟨Small.result, false⟩, { Small.session with tally := ⟨1, 1⟩ }) ∧
    Edited Small.session Small.disk Small.file (Small.file.root.sites [])
      (Small.result.root.listing 0) := by
  have h : Small.session.transform Small.disk none Small.file =
      (.ok ⟨Small.result, false⟩, { Small.session with tally := ⟨1, 1⟩ }) := by rfl
  exact ⟨h, (listing_transform h).2.1 (by decide)⟩

end Session

end Transclude

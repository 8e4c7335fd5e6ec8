/-
  Transclude/Proofs/Session/Idempotence.lean
  ==========================================
  **A second transformation has nothing to do.**

  A tree is *spent* when none of its nodes is marked; a session leaves such a tree
  as it is, whatever is on the disk (`transform_of_spent`).  So it has to be shown
  that results are spent, and the two kinds of marked nodes behave differently.

  A call is recognised by its kind and id alone.  Nodes that are rebuilt keep both,
  and literals hold no calls, so no marked call is left in any result.

  An import is recognised by its first and last child and by the children of its
  clause, so what happens below an import matters.  A literal that takes the place
  of the specifier has the id of synthesized nodes, under which anything may be
  recorded, and an import that is taken out from between could bring another child
  to the front.  Where no import has a call or an import for a child neither can
  happen: the children of an import stay in their places with kind and id, and the
  children of its clause that introduce names stay as well
  (`isImported_withChildren`).
-/
import Transclude.Proofs.Session.Results

namespace Transclude

/-- An import has the layout of imports as far as calls and imports go: none of them is a
    child of it. -/
def Node.ImportLaidOut (n : Node) : Prop :=
  n.kind = .importDeclaration →
    ∀ child ∈ n.children, child.kind ≠ .callExpression ∧ child.kind ≠ .importDeclaration

namespace Session

variable {session : Session} {disk : Disk} {recording : Recording} {file : SourceFile}

/-! ### No marked call is left -/

theorem called?_withChildren (marker : Marker) (program : Program) (n : Node)
    (children : List Node) :
    marker.called? program (n.withChildren children) = marker.called? program n := rfl

theorem called?_of_isLiteral {literal : Node} (h : literal.IsLiteral) :
    ∀ m ∈ literal.subtrees, session.marker.called? session.program m = none := by
  intro m hm
  cases hcalled : session.marker.called? session.program m with
  | none => rfl
  | some function =>
    have hkind := h m hm
    rw [Marker.kind_of_called? hcalled] at hkind
    cases hkind

theorem called?_rebuilt
    (hsound : ∀ s ∈ file.root.sites [],
      failure? session.program session.marker disk recording file s = none) :
    ∀ m ∈ subtreesAll
        (file.root.rebuilt (plan session.program session.marker disk file) none),
      session.marker.called? session.program m = none := by
  have hcalls : HoldsInResults session disk recording file
      (fun s => failure? session.program session.marker disk recording file s = none)
      (fun m => session.marker.called? session.program m = none) := by
    refine ⟨fun _ h => h, fun hstands => called?_of_isLiteral hstands.isLiteral, ?_⟩
    intro above n _ _ hunmarked
    rw [called?_withChildren]
    exact Marker.called?_of_unmarked hunmarked
  exact forall_rebuilt hcalls [] file.root rfl hsound

/-! ### No marked import is left -/

theorem isImported_of_isLiteral {literal : Node} (h : literal.IsLiteral) :
    ∀ m ∈ literal.subtrees, session.marker.isImported session.program m = false := by
  intro m hm
  cases himported : session.marker.isImported session.program m with
  | false => rfl
  | true =>
    have hkind := h m hm
    rw [Marker.kind_of_isImported himported] at hkind
    cases hkind

theorem rebuiltAll_of_unmarked (plan : Plan) (parent : Node) (index : Nat) (nodes : List Node)
    (h : ∀ n ∈ nodes, ∀ slot, plan slot n = .descend) :
    rebuiltAll plan parent index nodes =
      nodes.map fun n => n.withChildren (rebuiltAll plan n 0 n.children) := by
  induction nodes generalizing index with
  | nil =>
    rw [rebuiltAll]
    rfl
  | cons n nodes ih =>
    have htail := ih (index + 1) (fun m hm => h m (List.mem_cons_of_mem _ hm))
    rw [rebuiltAll, Node.rebuilt_eq, h n List.mem_cons_self, htail]
    rfl

theorem introducesNames_of_isLiteral {n : Node} (h : n.kind.isLiteral = true) :
    n.introducesNames = false := by
  rw [Node.introducesNames]
  split
  · next hkind =>
    rw [hkind] at h
    cases h
  · next hkind =>
    rw [hkind] at h
    cases h
  · next hkind =>
    rw [hkind] at h
    cases h
  · rfl

/-- What stands in the place of some nodes introduces names iff the nodes do. -/
theorem any_introducesNames_rebuiltAll (above : List Slot) (parent : Node) (index : Nat)
    (nodes : List Node)
    (hclear : ∀ (n : Node) (i : Nat),
      Site.clear session.marker session.program ⟨⟨parent, i⟩ :: above, n⟩ = true)
    (hsound : ∀ s ∈ sitesAll above parent index nodes,
      failure? session.program session.marker disk recording file s = none) :
    (rebuiltAll (plan session.program session.marker disk file) parent index nodes).any
      Node.introducesNames = nodes.any Node.introducesNames := by
  induction nodes generalizing index with
  | nil => rw [rebuiltAll]
  | cons n nodes ih =>
    rw [sitesAll] at hsound
    have hself := hsound ⟨⟨parent, index⟩ :: above, n⟩
      (List.mem_append_left _ (Node.self_mem_sites _ n))
    have htail := ih (index + 1) (fun s hs => hsound s (List.mem_append_right _ hs))
    rw [rebuiltAll, List.any_append, htail, List.any_cons]
    congr 1
    rcases rebuilt_cases (hclear n index) hself with
      ⟨function, literal, hcalled, hstands, hrebuilt⟩ | ⟨himported, hrebuilt⟩ | ⟨-, hrebuilt⟩
    · -- neither a call nor a literal introduces a name
      have hliteral := hstands.isLiteral literal literal.self_mem_subtrees
      rw [List.head?_cons] at hrebuilt
      rw [hrebuilt, List.any_cons, List.any_nil, Bool.or_false,
        introducesNames_of_isLiteral hliteral]
      simp only [Node.introducesNames, Marker.kind_of_called? hcalled]
    · rw [List.head?_cons] at hrebuilt
      rw [hrebuilt, List.any_nil]
      simp only [Node.introducesNames, Marker.kind_of_isImported himported]
    · rw [List.head?_cons] at hrebuilt
      rw [hrebuilt, List.any_cons, List.any_nil, Bool.or_false]
      rfl

theorem bindsNames_rebuilt {above : List Slot} {clause : Node}
    (hclear : Site.clear session.marker session.program ⟨above, clause⟩ = true)
    (hunmarked : session.marker.marks session.program clause = false)
    (hsound : ∀ s ∈ clause.sites above,
      failure? session.program session.marker disk recording file s = none) :
    (clause.withChildren (rebuiltAll (plan session.program session.marker disk file) clause 0
      clause.children)).bindsNames = clause.bindsNames := by
  have hnames := any_introducesNames_rebuiltAll above clause 0 clause.children
    (clear_below hclear hunmarked) (fun s hs => hsound s (Node.mem_sites_of_below hs))
  exact congrArg (fun names => decide (clause.kind = .importClause) && names) hnames

/-- **An import in its layout is not taken for another after its children have been gone
    into.** -/
theorem isImported_withChildren {above : List Slot} {n : Node}
    (hclear : Site.clear session.marker session.program ⟨above, n⟩ = true)
    (hunmarked : session.marker.marks session.program n = false)
    (hsound : ∀ s ∈ n.sites above,
      failure? session.program session.marker disk recording file s = none)
    (hlaid : n.ImportLaidOut) :
    session.marker.isImported session.program (n.withChildren
      (rebuiltAll (plan session.program session.marker disk file) n 0 n.children)) = false := by
  by_cases hkind : n.kind = .importDeclaration
  · have hchild : ∀ child ∈ n.children, session.marker.marks session.program child = false := by
      intro child hmem
      obtain ⟨hcall, himport⟩ := hlaid hkind child hmem
      exact Marker.unmarked_of_kind hcall himport
    have hplaces := rebuiltAll_of_unmarked (plan session.program session.marker disk file) n 0
      n.children (fun child hmem slot => plan_of_unmarked (hchild child hmem))
    rw [← Marker.isImported_of_unmarked hunmarked, hplaces]
    rw [Node.sites_eq] at hsound
    -- the specifier is found by its id, which it keeps
    have hspecifier : ((n.children.map fun m => m.withChildren
          (rebuiltAll (plan session.program session.marker disk file) m 0 m.children)).getLast?.bind
            session.program.declaringFile?) =
        n.children.getLast?.bind session.program.declaringFile? := by
      rw [List.getLast?_map]
      cases n.children.getLast? <;> rfl
    simp only [Marker.isImported, Node.importClause?, Node.moduleSpecifier?, Node.withChildren,
      hkind] at hspecifier ⊢
    rw [hspecifier]
    congr 1
    cases hchildren : n.children with
    | nil => rfl
    | cons first rest =>
      rw [hchildren, sitesAll] at hsound
      have hfirst : first ∈ n.children := by rw [hchildren]; exact List.mem_cons_self
      have hbinds := bindsNames_rebuilt (clear_below hclear hunmarked first 0)
        (hchild first hfirst)
        (fun s hs => hsound s (List.mem_cons_of_mem _ (List.mem_append_left _ hs)))
      simp only [List.map_cons, List.head?_cons, Option.filter_some]
      split
      · rw [Option.any_some, Option.any_some]
        exact hbinds
      · rfl
  · cases himported : session.marker.isImported session.program (n.withChildren
      (rebuiltAll (plan session.program session.marker disk file) n 0 n.children)) with
    | false => rfl
    | true => exact absurd (Marker.kind_of_isImported himported) hkind

theorem isImported_rebuilt
    (hsound : ∀ s ∈ file.root.sites [],
      failure? session.program session.marker disk recording file s = none)
    (hlaid : ∀ n ∈ file.root.subtrees, n.ImportLaidOut) :
    ∀ m ∈ subtreesAll
        (file.root.rebuilt (plan session.program session.marker disk file) none),
      session.marker.isImported session.program m = false := by
  have himports : HoldsInResults session disk recording file
      (fun s => failure? session.program session.marker disk recording file s = none
        ∧ s.node.ImportLaidOut)
      (fun m => session.marker.isImported session.program m = false) := by
    refine ⟨fun _ h => h.1, fun hstands => isImported_of_isLiteral hstands.isLiteral, ?_⟩
    intro above n hclear hfine hunmarked
    have hself := hfine ⟨above, n⟩ (Node.self_mem_sites above n)
    exact isImported_withChildren hclear hunmarked (fun s hs => (hfine s hs).1) hself.2
  exact forall_rebuilt himports [] file.root rfl
    (fun s hs => ⟨hsound s hs, hlaid s.node (Site.node_mem_subtrees hs)⟩)

/-! ### Transforming a tree in which nothing is marked -/

theorem failure?_of_unmarked {s : Site} {program : Program} {marker : Marker}
    (h : marker.marks program s.node = false) :
    failure? program marker disk recording file s = none := by
  simp only [failure?, failureAt?, Marker.called?_of_unmarked h]
  split <;> rfl

theorem after_of_unmarked {program : Program} {marker : Marker} {sites : List Site}
    (h : ∀ s ∈ sites, marker.marks program s.node = false) (tally : Tally) :
    tally.after marker program sites = tally := by
  have hcalls : countCalls marker program sites = 0 := by
    apply List.countP_eq_zero.mpr
    intro s hs
    simp only [Marker.called?_of_unmarked (h s hs), Option.isSome_none, Bool.and_false,
      Bool.false_eq_true, not_false_eq_true]
  have himports : countImports marker program sites = 0 := by
    apply List.countP_eq_zero.mpr
    intro s hs
    simp only [Marker.isImported_of_unmarked (h s hs), Bool.and_false, Bool.false_eq_true,
      not_false_eq_true]
  rw [Tally.after, hcalls, himports]
  rfl

theorem transform_of_spent (session : Session) (disk : Disk) (recording : Recording)
    (file : SourceFile)
    (h : ∀ n ∈ file.root.subtrees, session.marker.marks session.program n = false) :
    session.transform disk recording file = (.ok ⟨file, true⟩, session) := by
  have hsites : ∀ s ∈ file.root.sites [], session.marker.marks session.program s.node = false :=
    fun s hs => h s.node (Site.node_mem_subtrees hs)
  have hkept := Node.outcome_eq_kept (plan session.program session.marker disk file) none file.root
    (fun n hn slot => plan_of_unmarked (h n hn))
  rw [transform_of_sound session (fun s hs => failure?_of_unmarked (hsites s hs)), hkept,
    after_of_unmarked hsites]
  rfl

/-! ### The result is spent -/

/-- **A second transformation has nothing to do.**  No call in the result of a transformation
    goes to a named function of the marker module.  If moreover no import of the file has a
    call or an import for a child, then every later transformation of the result, by a
    session for the same program and marker and with any files at hand, succeeds, keeps the
    very same tree and counts nothing. -/
theorem transform_again {after : Session} {out : Revision}
    (h : session.transform disk recording file = (.ok out, after)) :
    (∀ n ∈ out.file.root.subtrees, n.kind = .callExpression →
      ∀ declaration, session.program.declaration? n = some declaration →
        session.marker.declares declaration.file = true → declaration.name = none) ∧
    ((∀ n ∈ file.root.subtrees, n.kind = .importDeclaration →
        ∀ child ∈ n.children, child.kind ≠ .callExpression ∧ child.kind ≠ .importDeclaration) →
      ∀ (again : Session) (disk' : Disk) (recording' : Recording),
        again.program = session.program → again.marker = session.marker →
        again.transform disk' recording' out.file = (.ok ⟨out.file, true⟩, again)) := by
  obtain ⟨hsound, rfl, -⟩ := transform_eq_ok h
  -- a root that was taken out is an import, and what is left of it has no clause
  have hroot : file.root.outcome (plan session.program session.marker disk file) none = .removed →
      session.marker.marks session.program (file.root.withChildren []) = false := by
    intro hremoved
    have himported : session.marker.isImported session.program file.root = true := by
      cases himported : session.marker.isImported session.program file.root with
      | true => rfl
      | false => exact absurd hremoved (outcome_root_ne_removed disk file himported)
    have hkind := Marker.kind_of_isImported himported
    have hclause : session.marker.isImported session.program (file.root.withChildren []) = false := by
      simp only [Marker.isImported, Node.importClause?, Node.withChildren, hkind]
      rfl
    rw [Marker.marks, called?_withChildren, Marker.called?_of_isImported himported, hclause]
    rfl
  have hcalls : ∀ n ∈ (file.revise (file.root.outcome
      (plan session.program session.marker disk file) none)).file.root.subtrees,
      session.marker.called? session.program n = none := by
    intro n hn
    rcases mem_subtrees_revise hn with hn | ⟨rfl, hremoved⟩
    · exact called?_rebuilt hsound n hn
    · exact Marker.called?_of_unmarked (hroot hremoved)
  constructor
  · intro n hn hkind declaration hdeclaration hdeclares
    have hcalled := hcalls n hn
    rw [Marker.called?, if_pos hkind] at hcalled
    simpa only [Marker.functionOf?, hdeclaration, hdeclares, if_true] using hcalled
  · intro hlaid again disk' recording' hprogram hmarker
    apply transform_of_spent
    intro n hn
    rw [hprogram, hmarker]
    rcases mem_subtrees_revise hn with hmem | ⟨rfl, hremoved⟩
    · have himported := isImported_rebuilt hsound hlaid n hmem
      rw [Marker.marks, hcalls n hn, himported]
      rfl
    · exact hroot hremoved

theorem transform_again_small :
    Small.session.transform Small.disk none Small.file =
      (.ok ⟨Small.result, false⟩, { Small.session with tally := ⟨1, 1⟩ }) ∧
    (∀ n ∈ Small.file.root.subtrees, n.kind = .importDeclaration →
      ∀ child ∈ n.children, child.kind ≠ .callExpression ∧ child.kind ≠ .importDeclaration) ∧
    Small.session.transform Disk.empty none Small.result = (.ok ⟨Small.result, true⟩, Small.session) := by
  have h : Small.session.transform Small.disk none Small.file =
      (.ok ⟨Small.result, false⟩, { Small.session with tally := ⟨1, 1⟩ }) := by rfl
  have hlaid : ∀ n ∈ Small.file.root.subtrees, n.kind = .importDeclaration →
      ∀ child ∈ n.children, child.kind ≠ .callExpression ∧ child.kind ≠ .importDeclaration := by
    decide
  exact ⟨h, hlaid, (transform_again h).2 hlaid Small.session Disk.empty none rfl rfl⟩

end Session

end Transclude

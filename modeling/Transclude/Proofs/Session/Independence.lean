/-
  Transclude/Proofs/Session/Independence.lean
  ===========================================
  **What a transformation may depend on.**

  A session recognises calls and imports by the ids of nodes, and reads off a call
  its first argument and the pattern of the declaration that it initializes.  Nothing
  of this looks at a span, at the text of the file or at the name by which a function
  is called, and of the disk only the files count that calls of the marker module
  name.  So two files that differ in nothing else have the same course: the same
  plan is carried out, or the same failure is raised at the same site.  Only the
  place that is blamed tells the two apart.
-/
import Transclude.Proofs.Session.Blame
import Transclude.Proofs.Tree.Alike

namespace Transclude

/-! ### What is read off a node -/

section Parts

variable {callee : Bool} {n n' : Node}

theorem Node.Alike.identifier? (h : n.Alike false n') : n.identifier? = n'.identifier? := by
  simp only [Node.identifier?, h.kind_eq]

theorem Node.Alike.string? (h : n.Alike false n') : n.string? = n'.string? := by
  simp only [Node.string?, h.kind_eq]

theorem Node.Alike.bindsNames (h : n.Alike false n') : n.bindsNames = n'.bindsNames := by
  simp only [Node.bindsNames, ← h.kind_eq]
  by_cases hkind : n.kind = .importClause
  · have hbelow := h.children_of_kind (by simp [hkind])
    have hnames := hbelow.map_eq (f := Node.introducesNames)
      (fun m m' hm => by simp only [Node.introducesNames, hm.kind_eq])
    have hany := congrArg (List.any · fun named => named) hnames
    simp only [List.any_map, Function.comp_def] at hany
    rw [hany]
  · simp [hkind]

theorem Node.Alike.propertyName? (h : n.Alike false n') :
    Option.Rel (Node.Alike false) n.propertyName? n'.propertyName? := by
  simp only [Node.propertyName?, ← h.kind_eq]
  split
  · next hkind => exact (h.children_of_kind (by simp [hkind])).head?
  · next hkind =>
    have hbelow := h.children_of_kind (by simp [hkind])
    rw [← hbelow.forall₂.length_eq]
    split
    · exact hbelow.head?
    · exact .none
  · exact .none

theorem Node.Alike.boundName? (h : n.Alike false n') :
    Option.Rel (Node.Alike false) n.boundName? n'.boundName? := by
  simp only [Node.boundName?, ← h.kind_eq]
  split
  · next hkind => exact (h.children_of_kind (by simp [hkind])).getElem? _
  · next hkind => exact (h.children_of_kind (by simp [hkind])).getLast?
  · exact .none

theorem Node.Alike.binding (h : n.Alike false n') : Binding.ofNode n = Binding.ofNode n' := by
  have hproperty := bind_eq_of_alike h.propertyName? (fun _ _ => Node.Alike.identifier?)
  have hname := bind_eq_of_alike h.boundName? (fun _ _ => Node.Alike.identifier?)
  rw [Binding.ofNode, Binding.ofNode, hproperty, hname]

theorem Node.Alike.pattern? (h : n.Alike false n') : Pattern.ofNode? n = Pattern.ofNode? n' := by
  unfold Pattern.ofNode?
  rw [← h.kind_eq]
  split
  · next hkind =>
    rw [(h.children_of_kind (by simp [hkind])).map_eq (fun _ _ => Node.Alike.binding)]
  · rfl

theorem Node.Alike.argument? (h : n.Alike callee n') :
    Expansion.argument? n = Expansion.argument? n' := by
  have hkind := h.kind_iff .callExpression (by simp)
  unfold Expansion.argument?
  by_cases hcall : n.kind = .callExpression
  · simp only [Node.arguments, hcall, hkind.mp hcall]
    exact bind_eq_of_alike h.children.tail.head? (fun _ _ => Node.Alike.string?)
  · have hnone : n.arguments = [] := by
      unfold Node.arguments
      split
      · contradiction
      · rfl
    have hnone' : n'.arguments = [] := by
      unfold Node.arguments
      split
      · next hcall' => exact absurd (hkind.mpr hcall') hcall
      · rfl
    rw [hnone, hnone']

theorem Slot.Alike.pattern? {slot slot' : Option Slot} (h : Option.Rel Slot.Alike slot slot') :
    Pattern.ofSlot? slot = Pattern.ofSlot? slot' := by
  cases h with
  | none => rfl
  | @some slot slot' h =>
    have hkind := h.parent.kind_iff .variableDeclaration (by simp)
    simp only [Pattern.ofSlot?, ← hkind, ← h.index]
    split
    · next hdeclaration =>
      simp only [Node.declarationName?, hdeclaration.1, hkind.mp hdeclaration.1]
      exact bind_eq_of_alike (h.parent.children_of_kind (by simp [hdeclaration.1])).head?
        (fun _ _ => Node.Alike.pattern?)
    · rfl

theorem Marker.called?_alike (marker : Marker) (program : Program) (h : n.Alike callee n') :
    marker.called? program n = marker.called? program n' := by
  have hkind := h.kind_iff .callExpression (by simp)
  simp only [Marker.called?, Marker.functionOf?, Program.declaration?, h.id_eq, hkind]

theorem Marker.isImported_alike (marker : Marker) (program : Program) (h : n.Alike callee n') :
    marker.isImported program n = marker.isImported program n' := by
  have hkind := h.kind_iff .importDeclaration (by simp)
  by_cases himport : n.kind = .importDeclaration
  · have hbelow := h.children_of_kind (by simp [himport])
    have hspecifier := bind_eq_of_alike (f := program.declaringFile?) hbelow.getLast?
      (fun m m' hm => by simp only [Program.declaringFile?, hm.id_eq])
    have hclause := hbelow.head?
    simp only [Marker.isImported, Node.importClause?, Node.moduleSpecifier?, himport,
      hkind.mp himport, hspecifier]
    generalize n.children.head? = clause at hclause ⊢
    generalize n'.children.head? = clause' at hclause ⊢
    cases hclause with
    | none => rfl
    | some hclause =>
      simp only [Option.filter_some, hclause.kind_eq]
      split <;> simp [hclause.bindsNames]
  · cases hresult : marker.isImported program n with
    | true => exact absurd (kind_of_isImported hresult) himport
    | false =>
      cases hresult' : marker.isImported program n' with
      | true => exact absurd (hkind.mpr (kind_of_isImported hresult')) himport
      | false => rfl

theorem Marker.marks_alike (marker : Marker) (program : Program) (h : n.Alike callee n') :
    marker.marks program n = marker.marks program n' := by
  rw [Marker.marks, Marker.marks, marker.called?_alike program h, marker.isImported_alike program h]

end Parts

/-! ### Files and failures -/

/-- Files of the same name whose trees are alike, read from whatever texts. -/
structure SourceFile.Alike (file file' : SourceFile) : Prop where
  name : file.name = file'.name
  root : file.root.Alike false file'.root

/-- Failures with the same cause whose traces differ in the place at most. -/
structure Failure.Alike (failure failure' : Failure) : Prop where
  cause : failure.cause = failure'.cause
  trace : ∃ headline place place' frames, failure.trace = headline :: place :: frames
    ∧ failure'.trace = headline :: place' :: frames

/-- Two disks give the same answer about the file that a node names, if it is a call of a
    named function of the marker module. -/
def ReadAlike (program : Program) (marker : Marker) (disk disk' : Disk) (file : SourceFile)
    (n : Node) : Prop :=
  ∀ function text, marker.called? program n = some function → Expansion.FirstArgument n text →
    disk.read (file.directory.join ⟨text⟩) = disk'.read (file.directory.join ⟨text⟩)

theorem SourceFile.Alike.directory {file file' : SourceFile} (h : file.Alike file') :
    file.directory = file'.directory := by
  simp only [SourceFile.directory, h.name]

namespace Session

variable {program : Program} {marker : Marker} {disk disk' : Disk} {recording : Recording}
  {file file' : SourceFile}

theorem ofCall_alike (hfile : file.Alike file') {slot slot' : Option Slot} {n n' : Node}
    {function : String} (hcalled : marker.called? program n = some function)
    (hread : ReadAlike program marker disk disk' file n)
    (hslot : Option.Rel Slot.Alike slot slot') (hnode : n.Alike true n') :
    Expansion.ofCall disk file function slot n =
      Expansion.ofCall disk' file' function slot' n' := by
  unfold Expansion.ofCall
  rw [← hnode.argument?, ← Slot.Alike.pattern? hslot, ← hfile.directory]
  cases hargument : Expansion.argument? n with
  | none => rfl
  | some text =>
    have hsame := hread function text hcalled (Expansion.argument?_eq_some_iff.mp hargument)
    simp only [hsame]

theorem plan_alike (hfile : file.Alike file') :
    Plan.Agree (ReadAlike program marker disk disk' file) (plan program marker disk file)
      (plan program marker disk' file') := by
  intro slot slot' n n' hread hslot hnode
  unfold plan
  rw [← marker.called?_alike program hnode, ← marker.isImported_alike program hnode]
  cases hcalled : marker.called? program n with
  | none => rfl
  | some function => simp only [ofCall_alike hfile hcalled hread hslot hnode]

theorem failureAt?_alike (hfile : file.Alike file') {slot slot' : Option Slot} {n n' : Node}
    (hread : ReadAlike program marker disk disk' file n)
    (hslot : Option.Rel Slot.Alike slot slot') (hnode : n.Alike true n') :
    Option.Rel Failure.Alike (failureAt? program marker disk recording file slot n)
      (failureAt? program marker disk' recording file' slot' n') := by
  unfold failureAt?
  rw [← marker.called?_alike program hnode]
  cases hcalled : marker.called? program n with
  | none => exact .none
  | some function =>
    simp only [← ofCall_alike hfile hcalled hread hslot hnode]
    cases Expansion.ofCall disk file function slot n with
    | ok literal => exact .none
    | error cause =>
      refine .some ⟨?_, _, _, _, _, Failure.trace_blameNode cause file n _,
        Failure.trace_blameNode cause file' n' _⟩
      rw [Failure.cause_blameNode, Failure.cause_blameNode]

theorem clear_alike {s s' : Site} (h : s.Alike s') :
    s.clear marker program = s'.clear marker program := by
  have hall : ∀ {above above' : List Slot}, List.Forall₂ Slot.Alike above above' →
      (above.all fun slot => !marker.marks program slot.parent) =
        above'.all fun slot => !marker.marks program slot.parent := by
    intro above above' habove
    induction habove with
    | nil => rfl
    | cons first _ ih =>
      rw [List.all_cons, List.all_cons, ih, marker.marks_alike program first.parent]
  exact hall h.above

theorem failure?_alike (hfile : file.Alike file') {s s' : Site}
    (hread : ReadAlike program marker disk disk' file s.node) (h : s.Alike s') :
    Option.Rel Failure.Alike (failure? program marker disk recording file s)
      (failure? program marker disk' recording file' s') := by
  unfold failure?
  rw [← clear_alike h]
  split
  · exact failureAt?_alike hfile hread h.slot? h.node
  · exact .none

theorem after_alike {sites sites' : List Site} (h : List.Forall₂ Site.Alike sites sites')
    (tally : Tally) : tally.after marker program sites = tally.after marker program sites' := by
  have hcounts : countCalls marker program sites = countCalls marker program sites'
      ∧ countImports marker program sites = countImports marker program sites' := by
    induction h with
    | nil => exact ⟨rfl, rfl⟩
    | cons first _ ih =>
      simp only [countCalls, countImports, List.countP_cons] at ih ⊢
      rw [ih.1, ih.2, clear_alike first, marker.called?_alike program first.node,
        marker.isImported_alike program first.node]
      exact ⟨rfl, rfl⟩
  rw [Tally.after, Tally.after, hcounts.1, hcounts.2]

/-- Along alike sites either nothing fails on either side, or the first failures are at
    alike sites and are alike. -/
theorem first_failing_alike (recording : Recording) (hfile : file.Alike file')
    {sites sites' : List Site} (h : List.Forall₂ Site.Alike sites sites')
    (hread : ∀ s ∈ sites, ReadAlike program marker disk disk' file s.node) :
    ((∀ s ∈ sites, failure? program marker disk recording file s = none)
      ∧ ∀ s ∈ sites', failure? program marker disk' recording file' s = none) ∨
    ∃ before s later failure before' s' later' failure',
      sites = before ++ s :: later ∧ sites' = before' ++ s' :: later'
      ∧ List.Forall₂ Site.Alike before before' ∧ failure.Alike failure'
      ∧ (∀ s ∈ before, failure? program marker disk recording file s = none)
      ∧ (∀ s ∈ before', failure? program marker disk' recording file' s = none)
      ∧ failure? program marker disk recording file s = some failure
      ∧ failure? program marker disk' recording file' s' = some failure' := by
  induction h with
  | nil => exact .inl ⟨by simp, by simp⟩
  | @cons s s' sites sites' first _ ih =>
    rw [List.forall_mem_cons] at hread
    have hself : Option.Rel Failure.Alike (failure? program marker disk recording file s)
        (failure? program marker disk' recording file' s') := failure?_alike hfile hread.1 first
    rcases hfailure : failure? program marker disk recording file s with _ | failure <;>
      rcases hfailure' : failure? program marker disk' recording file' s' with _ | failure' <;>
      rw [hfailure, hfailure'] at hself
    · rcases ih hread.2 with ⟨hsound, hsound'⟩ |
        ⟨before, t, later, failure, before', t', later', failure', rfl, rfl, hbefore, halike,
          hsound, hsound', hfailing, hfailing'⟩
      · left
        simp only [List.forall_mem_cons]
        exact ⟨⟨hfailure, hsound⟩, hfailure', hsound'⟩
      · right
        refine ⟨s :: before, t, later, failure, s' :: before', t', later', failure', rfl, rfl,
          .cons first hbefore, halike, ?_, ?_, hfailing, hfailing'⟩
        · exact List.forall_mem_cons.mpr ⟨hfailure, hsound⟩
        · exact List.forall_mem_cons.mpr ⟨hfailure', hsound'⟩
    · cases hself
    · cases hself
    · right
      cases hself with
      | some halike =>
        exact ⟨[], s, sites, failure, [], s', sites', failure', rfl, rfl, .nil, halike, by simp,
          by simp, hfailure, hfailure'⟩

theorem revise_alike (hfile : file.Alike file') {outcome outcome' : Outcome}
    (h : outcome.Alike false outcome') :
    (file.revise outcome).file.Alike (file'.revise outcome').file
      ∧ (file.revise outcome).untouched = (file'.revise outcome').untouched := by
  cases h with
  | kept => exact ⟨hfile, rfl⟩
  | changed results => exact ⟨⟨hfile.name, results⟩, rfl⟩
  | removed => exact ⟨⟨hfile.name, hfile.root.withChildren .nil⟩, rfl⟩

/-- **What a transformation may depend on.**  Let two sessions have the same program and the
    same marker, let two files have the same name and alike trees, and let two disks give the
    same answers about the files that calls of the marker module name.  Then both transformations
    succeed, with alike files and the same answer as to whether the tree is untouched, or both
    fail, with the same cause and with traces that differ in the place at most.  Either way they
    count the same. -/
theorem transform_alike (session session' : Session) (recording : Recording)
    (hprogram : session.program = session'.program) (hmarker : session.marker = session'.marker)
    (hfile : file.Alike file')
    (hread : ∀ n ∈ file.root.subtrees,
      ReadAlike session.program session.marker disk disk' file n) :
    ∃ result result' inlined pruned,
      session.transform disk recording file =
        (result, { session with
          tally := ⟨session.tally.inlined + inlined, session.tally.pruned + pruned⟩ })
      ∧ session'.transform disk' recording file' =
        (result', { session' with
          tally := ⟨session'.tally.inlined + inlined, session'.tally.pruned + pruned⟩ })
      ∧ ((∃ out out', result = .ok out ∧ result' = .ok out' ∧ out.file.Alike out'.file
            ∧ out.untouched = out'.untouched)
          ∨ ∃ failure failure', result = .error failure ∧ result' = .error failure'
            ∧ failure.Alike failure') := by
  obtain ⟨program, marker, tally⟩ := session
  obtain ⟨program', marker', tally'⟩ := session'
  obtain rfl : program = program' := hprogram
  obtain rfl : marker = marker' := hmarker
  have hsites := hfile.root.sites .nil
  have hreads : ∀ s ∈ file.root.sites [], ReadAlike program marker disk disk' file s.node :=
    fun s hs => hread s.node (Site.node_mem_subtrees hs)
  rcases first_failing_alike (recording.enter (.transforming file.name)) hfile hsites hreads with
    ⟨hsound, hsound'⟩ | ⟨before, s, later, failure, before', s', later', failure', hsplit, hsplit',
      hbefore, halike, hsound, hsound', hfailing, hfailing'⟩
  · rw [hfile.name] at hsound'
    have houtcome := outcome_alike (plan_alike hfile) .none hread hfile.root
    obtain ⟨hout, huntouched⟩ := revise_alike hfile houtcome
    refine ⟨_, _, _, _, transform_of_sound ⟨program, marker, tally⟩ hsound, ?_,
      .inl ⟨_, _, rfl, rfl, hout, huntouched⟩⟩
    rw [transform_of_sound ⟨program, marker, tally'⟩ hsound', ← after_alike hsites]
    rfl
  · rw [hfile.name] at hsound' hfailing'
    refine ⟨_, _, _, _, transform_of_failing ⟨program, marker, tally⟩ hsplit hsound hfailing, ?_,
      .inr ⟨_, _, rfl, rfl, halike⟩⟩
    rw [transform_of_failing ⟨program, marker, tally'⟩ hsplit' hsound' hfailing',
      ← after_alike hbefore]
    rfl

/-- The small file with the call at another place, under another name. -/
def renamed : SourceFile :=
  ⟨⟨"src/main.ts"⟩, "moved", Small.node 0 .sourceFile
    [Small.node 1 .importDeclaration
      [Small.node 2 .importClause [Small.node 3 .namedImports []],
        Small.node 4 (.stringLiteral "inlay") []],
      Small.effects,
      Small.greeting ⟨⟨10⟩, .callExpression, ⟨3, 5, by decide⟩,
        [Small.node 11 (.identifier "t") [], Small.node 12 (.stringLiteral "hello.txt") []]⟩]⟩

theorem renamed_alike : Small.file.Alike renamed := by
  refine ⟨rfl, .node (.same _) (.cons (.refl _ _) (.cons (.refl _ _) (.cons ?_ .nil)))⟩
  refine .node (.same _) (.cons (.node (.same _) (.cons (.refl _ _) (.cons ?_ .nil))) .nil)
  exact .node (.same _) (.cons (.node (.renamed "text" "t") .nil) (.refl _ _))

theorem transform_alike_small :
    Small.file.Alike renamed
    ∧ (∀ n ∈ Small.file.root.subtrees, ReadAlike Small.session.program Small.session.marker
        Small.disk (Small.disk.write ⟨"src/other.txt"⟩ [1]) Small.file n)
    ∧ ∃ out after, { Small.session with tally := ⟨5, 7⟩ }.transform
          (Small.disk.write ⟨"src/other.txt"⟩ [1]) none renamed = (.ok out, after)
        ∧ Small.result.Alike out.file ∧ after.tally = ⟨6, 8⟩ := by
  have hread : ∀ n ∈ Small.file.root.subtrees, ReadAlike Small.session.program
      Small.session.marker Small.disk (Small.disk.write ⟨"src/other.txt"⟩ [1]) Small.file n := by
    have hargument : ∀ n ∈ Small.file.root.subtrees,
        (Small.session.marker.called? Small.session.program n).isSome →
          Expansion.argument? n = some "hello.txt" := by decide
    intro n hn function text hcalled htext
    have hhello := hargument n hn (by rw [hcalled]; rfl)
    rw [Expansion.argument?_eq_some_iff.mpr htext] at hhello
    obtain rfl := Option.some.inj hhello
    decide +kernel
  have h : Small.session.transform Small.disk none Small.file =
      (.ok ⟨Small.result, false⟩, { Small.session with tally := ⟨1, 1⟩ }) := by rfl
  obtain ⟨result, result', inlined, pruned, hfirst, hsecond, hsame⟩ :=
    transform_alike Small.session { Small.session with tally := ⟨5, 7⟩ } none rfl rfl renamed_alike
      hread
  rw [h] at hfirst
  obtain ⟨rfl, hsession⟩ := Prod.mk.inj hfirst
  have hinlined : 1 = 0 + inlined := congrArg (fun s => s.tally.inlined) hsession
  have hpruned : 1 = 0 + pruned := congrArg (fun s => s.tally.pruned) hsession
  rcases hsame with ⟨out, out', hok, rfl, hout, -⟩ | ⟨failure, failure', herror, -⟩
  · obtain rfl := Except.ok.inj hok
    refine ⟨renamed_alike, hread, out', _, hsecond, hout, ?_⟩
    simp only [Tally.mk.injEq]
    omega
  · cases herror

end Session

end Transclude

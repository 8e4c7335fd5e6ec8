/-
  Transclude/Proofs/Session/Course.lean
  =====================================
  **The course of a transformation.**

  Which nodes a session settles can be read off the tree: calls of named functions
  of the marker module, and imports that bring its names into scope.  These are the
  *marked* nodes.  A site is *clear* when no node above it is marked, and these are
  the sites that the traversal comes to; a marked node at a clear site is a topmost
  one.

  What the session then does is a plan with an action (`visit_eq`), so the whole
  transformation is told by the list of sites: it goes through them in preorder,
  counts the topmost calls and imports, and stops at the first topmost call that
  fails (`transform_of_failing`); if there is none, the plan is carried out
  (`transform_of_sound`).
-/
import Transclude.Proofs.Expansion
import Transclude.Proofs.Tree.Plan
import Transclude.Session

namespace Transclude

/-! ### Marked nodes and clear sites -/

namespace Marker

/-- The function of the marker module that a node calls, if it is a call of one that has
    a name. -/
def called? (marker : Marker) (program : Program) (n : Node) : Option String :=
  if n.kind = .callExpression then marker.functionOf? program n else none

/-- Whether a node is a call of a named function of the marker module or an import of
    names of it. -/
def marks (marker : Marker) (program : Program) (n : Node) : Bool :=
  (marker.called? program n).isSome || marker.isImported program n

variable {marker : Marker} {program : Program} {n : Node}

theorem kind_of_called? {function : String} (h : marker.called? program n = some function) :
    n.kind = .callExpression := by
  unfold called? at h
  split at h
  · next hkind => exact hkind
  · cases h

theorem kind_of_isImported (h : marker.isImported program n = true) :
    n.kind = .importDeclaration := by
  unfold isImported at h
  rw [Bool.and_eq_true] at h
  have hclause := h.1
  unfold Node.importClause? at hclause
  split at hclause
  · next hkind => exact hkind
  · cases hclause

theorem called?_of_isImported (h : marker.isImported program n = true) :
    marker.called? program n = none := by
  unfold called?
  rw [kind_of_isImported h]
  rfl

theorem called?_of_unmarked (h : marker.marks program n = false) :
    marker.called? program n = none := by
  rw [marks, Bool.or_eq_false_iff, Option.isSome_eq_false_iff, Option.isNone_iff_eq_none] at h
  exact h.1

theorem isImported_of_unmarked (h : marker.marks program n = false) :
    marker.isImported program n = false := by
  rw [marks, Bool.or_eq_false_iff] at h
  exact h.2

theorem unmarked_of_kind (hcall : n.kind ≠ .callExpression)
    (himport : n.kind ≠ .importDeclaration) :
    marker.marks program n = false := by
  have hcalled : marker.called? program n = none := by
    rw [called?, if_neg hcall]
  cases himported : marker.isImported program n with
  | true => exact absurd (kind_of_isImported himported) himport
  | false =>
    rw [marks, hcalled, himported]
    rfl

end Marker

/-- Whether no node above a site is marked. -/
def Site.clear (marker : Marker) (program : Program) (s : Site) : Bool :=
  s.above.all fun slot => !marker.marks program slot.parent

/-- A site holds a topmost call of the function that the marker module declares under the
    given name. -/
def Site.TopmostCall (marker : Marker) (program : Program) (s : Site) (function : String) : Prop :=
  s.clear marker program = true ∧ marker.called? program s.node = some function

def countCalls (marker : Marker) (program : Program) (sites : List Site) : Nat :=
  sites.countP fun s => s.clear marker program && (marker.called? program s.node).isSome

def countImports (marker : Marker) (program : Program) (sites : List Site) : Nat :=
  sites.countP fun s => s.clear marker program && marker.isImported program s.node

/-- A tally that has grown by the topmost calls and imports among some sites. -/
def Tally.after (tally : Tally) (marker : Marker) (program : Program) (sites : List Site) : Tally :=
  ⟨tally.inlined + countCalls marker program sites,
    tally.pruned + countImports marker program sites⟩

theorem Tally.after_cons (tally : Tally) (marker : Marker) (program : Program) (s : Site)
    (sites : List Site) :
    tally.after marker program (s :: sites) =
      (tally.after marker program [s]).after marker program sites := by
  simp only [Tally.after, countCalls, countImports, List.countP_cons, List.countP_nil,
    Nat.zero_add, Tally.mk.injEq]
  constructor <;> omega

theorem Tally.after_singleton_of_not_clear {tally : Tally} {marker : Marker} {program : Program}
    {s : Site} (h : s.clear marker program = false) : tally.after marker program [s] = tally := by
  simp only [Tally.after, countCalls, countImports, List.countP_singleton, h, Bool.false_and,
    Bool.false_eq_true, if_false, Nat.add_zero]

namespace Session

/-! ### A session is a plan with an action -/

section Plan

variable (program : Program) (marker : Marker) (disk : Disk) (recording : Recording)
  (file : SourceFile)

/-- What is to become of each node.  A call that fails settles its node too: nothing below
    it is looked at. -/
def plan : Plan := fun slot n =>
  match marker.called? program n with
  | some function =>
    match Expansion.ofCall disk file function slot n with
    | .ok literal => .replace literal
    | .error _ => .keep
  | none => if marker.isImported program n then .remove else .descend

def failureAt? (slot : Option Slot) (n : Node) : Option Failure :=
  match marker.called? program n with
  | some function =>
    match Expansion.ofCall disk file function slot n with
    | .ok _ => none
    | .error cause =>
      some ((Failure.raise (recording.enter (.inlining function)) cause).blameNode file n)
  | none => none

/-- Counts a node that is settled, or fails with the failure at it. -/
def act (slot : Option Slot) (n : Node) : Counting PUnit :=
  match failureAt? program marker disk recording file slot n with
  | some failure => throw failure
  | none =>
    if (marker.called? program n).isSome then modify Tally.countCall
    else if marker.isImported program n then modify Tally.countImport
    else pure ()

/-- **A session acts at a node and then answers as planned.** -/
theorem visit_eq (slot : Option Slot) (n : Node) :
    visit program marker disk recording file slot n =
      act program marker disk recording file slot n >>= fun _ =>
        pure (plan program marker disk file slot n) := by
  cases hcalled : marker.called? program n with
  | some function =>
    have hkind := Marker.kind_of_called? hcalled
    have hfunction : marker.functionOf? program n = some function := by
      simpa only [Marker.called?, hkind, if_true] using hcalled
    simp only [visit, Visitor.byKind, hkind, visitCall, expand?, hfunction, act, failureAt?, plan,
      hcalled]
    cases Expansion.ofCall disk file function slot n with
    | ok literal => rfl
    | error cause => exact (ExceptT.bind_throw _).symm
  | none =>
    simp only [act, failureAt?, plan, hcalled, Option.isSome_none, Bool.false_eq_true, if_false]
    by_cases himported : marker.isImported program n = true
    · have hkind := Marker.kind_of_isImported himported
      simp only [visit, Visitor.byKind, hkind, visitImport, himported, if_true]
    · simp only [himported, if_false, Bool.false_eq_true, pure_bind]
      unfold visit Visitor.byKind
      split
      · next hkind =>
        -- a call, but of no function of the marker module that has a name
        have hfunction : marker.functionOf? program n = none := by
          simpa only [Marker.called?, hkind, if_true] using hcalled
        simp only [visitCall, expand?, hfunction]
      · simp only [visitImport, himported, if_false, Bool.false_eq_true]
      · rfl

theorem settles_plan (slot : Option Slot) (n : Node) :
    (plan program marker disk file slot n).settles = marker.marks program n := by
  unfold plan Marker.marks
  cases hcalled : marker.called? program n with
  | some function =>
    simp only
    cases Expansion.ofCall disk file function slot n <;> rfl
  | none =>
    simp only
    split
    · next himported =>
      rw [himported]
      rfl
    · next himported =>
      rw [Bool.not_eq_true] at himported
      rw [himported]
      rfl

theorem reached_plan (s : Site) :
    s.reached (plan program marker disk file) = s.clear marker program := by
  unfold Site.reached Site.clear
  induction s.above with
  | nil => rfl
  | cons slot above ih => rw [Plan.opens_cons, settles_plan, ih, List.all_cons]

def failure? (s : Site) : Option Failure :=
  if s.clear marker program then failureAt? program marker disk recording file s.slot? s.node
  else none

end Plan

/-! ### Going through the sites -/

section Sites

variable {program : Program} {marker : Marker} {disk : Disk} {recording : Recording}
  {file : SourceFile}

theorem run_act_of_failing {s : Site} {failure : Failure}
    (h : failure? program marker disk recording file s = some failure) (tally : Tally) :
    s.clear marker program = true ∧
      (act program marker disk recording file s.slot? s.node).run tally =
        (.error failure, tally) := by
  unfold failure? at h
  split at h
  · next hclear =>
    refine ⟨hclear, ?_⟩
    simp only [act, h]
    rfl
  · cases h

theorem run_act_of_sound {s : Site} (hclear : s.clear marker program = true)
    (h : failure? program marker disk recording file s = none) (tally : Tally) :
    (act program marker disk recording file s.slot? s.node).run tally =
      (.ok ⟨⟩, tally.after marker program [s]) := by
  rw [failure?, if_pos hclear] at h
  simp only [act, h]
  cases hcalled : marker.called? program s.node with
  | some function =>
    have himported : marker.isImported program s.node = false := by
      cases himported : marker.isImported program s.node with
      | false => rfl
      | true =>
        rw [Marker.called?_of_isImported himported] at hcalled
        cases hcalled
    simp only [Tally.after, countCalls, countImports, List.countP_singleton, hclear, hcalled,
      himported]
    rfl
  | none =>
    cases himported : marker.isImported program s.node <;>
      · simp only [Tally.after, countCalls, countImports, List.countP_singleton, hclear, hcalled,
          himported]
        rfl

theorem run_perform_of_sound (sites : List Site) :
    (∀ s ∈ sites, failure? program marker disk recording file s = none) → ∀ tally : Tally,
      (Transclude.perform (act program marker disk recording file)
          (sites.filter (Site.reached (plan program marker disk file)))).run tally =
        (.ok ⟨⟩, tally.after marker program sites) := by
  induction sites with
  | nil =>
    intro _ tally
    rfl
  | cons s sites ih =>
    intro h tally
    have hrest := ih (fun s' hs' => h s' (List.mem_cons_of_mem _ hs'))
    rw [Tally.after_cons]
    cases hclear : s.clear marker program with
    | true =>
      have hself := run_act_of_sound hclear (h s List.mem_cons_self) tally
      rw [List.filter_cons_of_pos (by rw [reached_plan, hclear]), perform_cons, Result.run_bind,
        hself]
      exact hrest (tally.after marker program [s])
    | false =>
      -- below a marked node: neither looked at nor counted
      rw [List.filter_cons_of_neg (by rw [reached_plan, hclear]; decide), hrest tally,
        Tally.after_singleton_of_not_clear hclear]

theorem run_perform_of_failing (before : List Site) {s : Site} {failure : Failure}
    (later : List Site) :
    (∀ s ∈ before, failure? program marker disk recording file s = none) →
    failure? program marker disk recording file s = some failure → ∀ tally : Tally,
      (Transclude.perform (act program marker disk recording file)
          ((before ++ s :: later).filter (Site.reached (plan program marker disk file)))).run tally =
        (.error failure, tally.after marker program before) := by
  intro hbefore hfailing tally
  rw [List.filter_append, perform_append, Result.run_bind,
    run_perform_of_sound before hbefore tally]
  obtain ⟨hclear, hself⟩ := run_act_of_failing hfailing (tally.after marker program before)
  simp only
  rw [List.filter_cons_of_pos (by rw [reached_plan, hclear]), perform_cons, Result.run_bind,
    hself]

/-! ### The two ways a transformation can go -/

theorem transformFile_eq (session : Session) :
    transformFile session.program session.marker disk recording file =
      Transclude.perform
          (act session.program session.marker disk (recording.enter (.transforming file.name)) file)
          ((file.root.sites []).filter
            (Site.reached (plan session.program session.marker disk file))) >>= fun _ =>
        pure (file.revise
          (file.root.outcome (plan session.program session.marker disk file) none)) := by
  have htraverse := Node.traverse_plan
    (visit_eq session.program session.marker disk (recording.enter (.transforming file.name)) file)
    [] rfl file.root
  rw [List.head?_nil] at htraverse
  rw [transformFile, SourceFile.traverse, htraverse]
  simp only [bind_assoc, pure_bind]

/-- **Where no topmost call fails, the plan is carried out and everything is counted.** -/
theorem transform_of_sound (session : Session)
    (h : ∀ s ∈ file.root.sites [], failure? session.program session.marker disk
      (recording.enter (.transforming file.name)) file s = none) :
    session.transform disk recording file =
      (.ok (file.revise (file.root.outcome (plan session.program session.marker disk file) none)),
        { session with
          tally := session.tally.after session.marker session.program (file.root.sites []) }) := by
  rw [transform, transformFile_eq, Session.perform, Result.run_bind,
    run_perform_of_sound _ h session.tally]
  rfl

/-- **The first topmost call that fails decides the failure and the count.** -/
theorem transform_of_failing (session : Session) {before later : List Site} {s : Site}
    {failure : Failure} (hsites : file.root.sites [] = before ++ s :: later)
    (hbefore : ∀ s ∈ before, failure? session.program session.marker disk
      (recording.enter (.transforming file.name)) file s = none)
    (hfailing : failure? session.program session.marker disk
      (recording.enter (.transforming file.name)) file s = some failure) :
    session.transform disk recording file =
      (.error failure,
        { session with
          tally := session.tally.after session.marker session.program before }) := by
  rw [transform, transformFile_eq, Session.perform, Result.run_bind, hsites,
    run_perform_of_failing before later hbefore hfailing session.tally]

theorem first_failing (recording : Recording) (sites : List Site) :
    (∀ s ∈ sites, failure? program marker disk recording file s = none) ∨
      ∃ before s later failure, sites = before ++ s :: later
        ∧ (∀ s ∈ before, failure? program marker disk recording file s = none)
        ∧ failure? program marker disk recording file s = some failure := by
  induction sites with
  | nil =>
    left
    intro s hs
    exact absurd hs List.not_mem_nil
  | cons s sites ih =>
    cases h : failure? program marker disk recording file s with
    | some failure =>
      right
      refine ⟨[], s, sites, failure, rfl, ?_, h⟩
      intro s' hs'
      exact absurd hs' List.not_mem_nil
    | none =>
      rcases ih with hsound | ⟨before, s', later, failure, rfl, hbefore, hfailing⟩
      · left
        intro s' hs'
        rcases List.mem_cons.mp hs' with rfl | hs'
        · exact h
        · exact hsound s' hs'
      · right
        refine ⟨s :: before, s', later, failure, rfl, ?_, hfailing⟩
        intro s'' hs''
        rcases List.mem_cons.mp hs'' with rfl | hs''
        · exact h
        · exact hbefore s'' hs''

theorem transform_eq_ok {session after : Session} {out : Revision}
    (h : session.transform disk recording file = (.ok out, after)) :
    (∀ s ∈ file.root.sites [], failure? session.program session.marker disk
      (recording.enter (.transforming file.name)) file s = none) ∧
    out = file.revise (file.root.outcome (plan session.program session.marker disk file) none) ∧
    after = { session with
      tally := session.tally.after session.marker session.program (file.root.sites []) } := by
  rcases first_failing (recording.enter (.transforming file.name)) (file.root.sites []) with
    hsound | ⟨before, s, later, failure, hsites, hbefore, hfailing⟩
  · have hresult := h.symm.trans (transform_of_sound session hsound)
    refine ⟨hsound, ?_, ?_⟩
    · exact Except.ok.inj (congrArg Prod.fst hresult)
    · exact congrArg Prod.snd hresult
  · have hresult := h.symm.trans (transform_of_failing session hsites hbefore hfailing)
    have hfst := congrArg Prod.fst hresult
    cases hfst

end Sites

/-! ### What stands in the place of a node at a clear site where nothing fails -/

section Answers

variable {session : Session} {disk : Disk} {recording : Recording} {file : SourceFile}

theorem plan_of_call {s : Site} {function : String}
    (hcall : s.TopmostCall session.marker session.program function)
    (hsound : failure? session.program session.marker disk recording file s = none) :
    ∃ literal, Expansion.StandsFor disk file s.slot? s.node function literal ∧
      plan session.program session.marker disk file s.slot? s.node = .replace literal := by
  obtain ⟨hclear, hcalled⟩ := hcall
  simp only [failure?, hclear, if_true, failureAt?, hcalled] at hsound
  cases hexpansion : Expansion.ofCall disk file function s.slot? s.node with
  | ok literal =>
    refine ⟨literal, Expansion.ofCall_eq_ok_iff.mp hexpansion, ?_⟩
    simp only [plan, hcalled, hexpansion]
  | error cause =>
    rw [hexpansion] at hsound
    cases hsound

theorem plan_of_isImported {slot : Option Slot} {n : Node}
    (h : session.marker.isImported session.program n = true) :
    plan session.program session.marker disk file slot n = .remove := by
  simp only [plan, Marker.called?_of_isImported h, h, if_true]

theorem plan_of_unmarked {slot : Option Slot} {n : Node}
    (h : session.marker.marks session.program n = false) :
    plan session.program session.marker disk file slot n = .descend := by
  simp only [plan, Marker.called?_of_unmarked h, Marker.isImported_of_unmarked h,
    Bool.false_eq_true, if_false]

/-- **The three things that can stand in the place of a node**: the literal of a call,
    nothing for an import, and otherwise the node around what is left of its children. -/
theorem rebuilt_cases {above : List Slot} {n : Node}
    (hclear : Site.clear session.marker session.program ⟨above, n⟩ = true)
    (hsound : failure? session.program session.marker disk recording file ⟨above, n⟩ = none) :
    (∃ function literal, session.marker.called? session.program n = some function
      ∧ Expansion.StandsFor disk file above.head? n function literal
      ∧ n.rebuilt (plan session.program session.marker disk file) above.head? = [literal]) ∨
    (session.marker.isImported session.program n = true
      ∧ n.rebuilt (plan session.program session.marker disk file) above.head? = []) ∨
    (session.marker.marks session.program n = false
      ∧ n.rebuilt (plan session.program session.marker disk file) above.head? =
        [n.withChildren
          (rebuiltAll (plan session.program session.marker disk file) n 0 n.children)]) := by
  rw [Node.rebuilt_eq]
  cases hcalled : session.marker.called? session.program n with
  | some function =>
    left
    obtain ⟨literal, hliteral, hplan⟩ := plan_of_call ⟨hclear, hcalled⟩ hsound
    simp only [Site.slot?] at hplan
    exact ⟨function, literal, rfl, hliteral, by rw [hplan]⟩
  | none =>
    right
    cases himported : session.marker.isImported session.program n with
    | true =>
      left
      exact ⟨rfl, by rw [plan_of_isImported himported]⟩
    | false =>
      right
      have hunmarked : session.marker.marks session.program n = false := by
        rw [Marker.marks, hcalled, himported]
        rfl
      exact ⟨hunmarked, by rw [plan_of_unmarked hunmarked]⟩

theorem clear_below {above : List Slot} {parent : Node}
    (hclear : Site.clear session.marker session.program ⟨above, parent⟩ = true)
    (hunmarked : session.marker.marks session.program parent = false) (n : Node) (index : Nat) :
    Site.clear session.marker session.program ⟨⟨parent, index⟩ :: above, n⟩ = true := by
  rw [Site.clear, List.all_cons, hunmarked]
  exact hclear

theorem nodes_eq_revise {outcome : Outcome} (file : SourceFile) (h : outcome ≠ .removed) :
    outcome.nodes file.root = [(file.revise outcome).file.root] := by
  cases outcome with
  | kept => rfl
  | changed root => rfl
  | removed => exact absurd rfl h

theorem outcome_root_ne_removed (disk : Disk) (file : SourceFile) {n : Node}
    (h : session.marker.isImported session.program n = false) :
    n.outcome (plan session.program session.marker disk file) none ≠ .removed := by
  rw [Node.outcome_eq]
  simp only [plan, h, Bool.false_eq_true, if_false]
  split
  · exact Outcome.noConfusion
  · exact Outcome.noConfusion
  · next hplan =>
    split at hplan
    · split at hplan <;> cases hplan
    · cases hplan
  · unfold Remaining.close
    split <;> exact Outcome.noConfusion

end Answers

end Session

/-! ### A small session

A file that imports a directive and calls it, beside an import for its effects alone. -/

namespace Small

def node (id : UInt32) (kind : Kind) (children : List Node) : Node :=
  ⟨⟨id⟩, kind, .origin, children⟩

def effects : Node := node 5 .importDeclaration [node 6 (.stringLiteral "effects") []]

def greeting (initializer : Node) : Node :=
  node 7 .variableStatement
    [node 8 .variableDeclaration [node 9 (.identifier "greeting") [], initializer]]

def file : SourceFile :=
  ⟨⟨"src/main.ts"⟩, "", node 0 .sourceFile
    [node 1 .importDeclaration
      [node 2 .importClause [node 3 .namedImports []], node 4 (.stringLiteral "inlay") []],
      effects,
      greeting (node 10 .callExpression
        [node 11 (.identifier "text") [], node 12 (.stringLiteral "hello.txt") []])]⟩

def session : Session :=
  .start
    ⟨[file], [(⟨10⟩, ⟨some "$INLINE_FILE", ⟨"inlay//index.d.ts"⟩⟩)],
      [(⟨4⟩, some ⟨"inlay/./index.d.ts"⟩)]⟩
    (.inDirectory ⟨"inlay"⟩)

def disk : Disk := Disk.empty.write ⟨"src/hello.txt"⟩ [104, 105]

def result : SourceFile :=
  file.withRoot (node 0 .sourceFile [effects, greeting (Literal.string "hi")])

end Small

end Transclude

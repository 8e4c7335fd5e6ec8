/-
  Transclude/Proofs/Tree/Visits.lean
  ==================================
  **What a traversal does, whatever its visitor.**

  A visitor may keep a state, answer by it, and fail.  Then its answers are not
  known beforehand, but they are known afterwards: one answer for each site that it
  was asked about.  A traversal is described by these answers alone.  It asks about
  the sites in preorder, leaving out what stands below a site that was settled, each
  site once, and stops right after the first failure (`Asked`).  If there is none,
  the answers are put into the tree (`Node.substituted`).

  What is asked is made visible by a visitor that writes down every question
  (`Visitor.logged`).  The induction goes along the binds of the traversal: a piece
  of work *covers* some sites if it asks about them as described, and two pieces in
  a row cover their sites in a row (`Covers.bind`).
-/
import Transclude.Proofs.Result
import Transclude.Proofs.Tree.Plan
import Transclude.Source

namespace Transclude

/-- Work that keeps a state and may fail; a failure does not undo what was done to the state. -/
abbrev Work (ε σ : Type) := ExceptT ε (StateM σ)

variable {ε σ α β : Type}

/-! ### Questions -/

/-- What a visitor is told when it is asked about a site. -/
def Site.question (s : Site) : Option Slot × Node := (s.slot?, s.node)

/-- The visitor that also writes down what it is asked, in order. -/
def Visitor.logged (visit : Visitor (Work ε σ)) :
    Visitor (Work ε (σ × List (Option Slot × Node))) := fun slot n =>
  ExceptT.mk fun (state, log) =>
    let (result, state) := (visit slot n).run state
    (result, (state, log ++ [(slot, n)]))

/-- The visitor is asked about the sites in order, from the first state to the last one, until
    it fails or all are answered as given.  The last list holds the sites it was asked about. -/
inductive Asked (visit : Visitor (Work ε σ)) (answers : Answers) :
    List Site → σ → Except ε Unit → σ → List Site → Prop
  | done {state : σ} : Asked visit answers [] state (.ok ⟨⟩) state []
  | answered {s : Site} {sites asked : List Site} {state middle final : σ}
      {result : Except ε Unit} (first : (visit s.slot? s.node).run state = (.ok (answers s), middle))
      (others : Asked visit answers sites middle result final asked) :
      Asked visit answers (s :: sites) state result final (s :: asked)
  | failed {s : Site} {sites : List Site} {state final : σ} {e : ε}
      (first : (visit s.slot? s.node).run state = (.error e, final)) :
      Asked visit answers (s :: sites) state (.error e) final [s]

namespace Asked

variable {visit : Visitor (Work ε σ)} {answers : Answers} {sites more asked asked' : List Site}
  {state middle final : σ}

theorem append {result : Except ε Unit}
    (h : Asked visit answers sites state (.ok ⟨⟩) middle asked)
    (hmore : Asked visit answers more middle result final asked') :
    Asked visit answers (sites ++ more) state result final (asked ++ asked') := by
  generalize hfirst : (Except.ok ⟨⟩ : Except ε Unit) = first at h
  induction h with
  | done => exact hmore
  | answered first _ ih => exact .answered first (ih hmore hfirst)
  | failed => cases hfirst

theorem append_of_failed {e : ε} (h : Asked visit answers sites state (.error e) final asked)
    (more : List Site) : Asked visit answers (sites ++ more) state (.error e) final asked := by
  generalize hresult : (Except.error e : Except ε Unit) = result at h ⊢
  induction h with
  | done => cases hresult
  | answered first _ ih => exact .answered first (ih hresult)
  | failed first =>
    cases hresult
    exact .failed first

theorem eq_of_ok (h : Asked visit answers sites state (.ok ⟨⟩) final asked) : asked = sites := by
  generalize hresult : (Except.ok ⟨⟩ : Except ε Unit) = result at h
  induction h with
  | done => rfl
  | answered _ _ ih => rw [ih hresult]
  | failed => cases hresult

end Asked

/-! ### Putting answers into a tree -/

mutual

/-- What stands in the place of a node by the answers about the sites of its tree: a node that
    was gone into stays, around what stands in the places of its children. -/
def Node.substituted (answers : Answers) (above : List Slot) : Node → List Node
  | ⟨id, kind, span, children⟩ =>
    match answers ⟨above, ⟨id, kind, span, children⟩⟩ with
    | .keep => [⟨id, kind, span, children⟩]
    | .replace replacement => [replacement]
    | .remove => []
    | .descend =>
      [⟨id, kind, span, substitutedAll answers above ⟨id, kind, span, children⟩ 0 children⟩]

def substitutedAll (answers : Answers) (above : List Slot) (parent : Node) (index : Nat) :
    List Node → List Node
  | [] => []
  | n :: rest =>
    n.substituted answers (⟨parent, index⟩ :: above)
      ++ substitutedAll answers above parent (index + 1) rest

end

/-! ### Work that covers sites -/

/-- From any state, a piece of work asks about some sites as far as they are open, and its result
    is shown by the answers.  Answers are whatever agrees with those that were given, and they
    may be taken to meet the condition under which the work is done. -/
def Covers (visit : Visitor (Work ε σ)) (Given : Answers → Prop) (sites : List Site)
    (work : Work ε σ α) (logged : Work ε (σ × List (Option Slot × Node)) α)
    (Shows : Answers → α → Prop) : Prop :=
  ∀ state, ∃ (given : List (Site × Verdict)) (asked : List Site) (result : Except ε α) (final : σ),
    (given.map Prod.fst).Sublist sites
    ∧ work.run state = (result, final)
    ∧ (∀ log, logged.run (state, log) = (result, (final, log ++ asked.map Site.question)))
    ∧ ∀ answers : Answers, (∀ entry ∈ given, answers entry.1 = entry.2) → Given answers →
        Asked visit answers (sites.filter fun s => answers.opens s.above) state
          (result.map fun _ => ⟨⟩) final asked
        ∧ ∀ a, result = .ok a → Shows answers a

namespace Covers

variable {visit : Visitor (Work ε σ)} {Given : Answers → Prop} {sites more : List Site}
  {Shows : Answers → α → Prop}

theorem pure (a : α) (hnone : ∀ answers, Given answers →
      sites.filter (fun s => answers.opens s.above) = [] ∧ Shows answers a) :
    Covers visit Given sites (pure a) (pure a) Shows := by
  intro state
  refine ⟨[], [], .ok a, state, List.nil_sublist _, rfl, fun log => ?_, ?_⟩
  · rw [List.map_nil, List.append_nil]
    rfl
  · intro answers _ hgiven
    obtain ⟨hsites, hshows⟩ := hnone answers hgiven
    rw [hsites]
    refine ⟨.done, ?_⟩
    intro a' ha
    cases ha
    exact hshows

/-- Two pieces of work in a row cover their sites in a row.  The second may count on what the
    result of the first shows about the answers. -/
theorem bind {work : Work ε σ α} {logged : Work ε (σ × List (Option Slot × Node)) α}
    {next : α → Work ε σ β} {nextLogged : α → Work ε (σ × List (Option Slot × Node)) β}
    {Shows' : Answers → β → Prop}
    (hwork : Covers visit Given sites work logged Shows)
    (hnext : ∀ a, Covers visit (fun answers => Given answers ∧ Shows answers a) more (next a)
      (nextLogged a) Shows') :
    Covers visit Given (sites ++ more) (work >>= next) (logged >>= nextLogged) Shows' := by
  intro state
  obtain ⟨given, asked, result, middle, hsub, hrun, hlogged, hfirst⟩ := hwork state
  rcases result with e | a
  · refine ⟨given, asked, .error e, middle, hsub.trans (List.sublist_append_left _ _), ?_, ?_, ?_⟩
    · rw [Result.run_bind, hrun]
    · intro log
      rw [Result.run_bind, hlogged log]
    · intro answers hagree hgiven
      rw [List.filter_append]
      refine ⟨(hfirst answers hagree hgiven).1.append_of_failed _, ?_⟩
      intro b hb
      cases hb
  · obtain ⟨given', asked', result', final, hsub', hrun', hlogged', hsecond⟩ := hnext a middle
    refine ⟨given ++ given', asked ++ asked', result', final, ?_, ?_, ?_, ?_⟩
    · rw [List.map_append]
      exact hsub.append hsub'
    · rw [Result.run_bind, hrun]
      exact hrun'
    · intro log
      rw [Result.run_bind, hlogged log, List.map_append, ← List.append_assoc]
      exact hlogged' _
    · intro answers hagree hgiven
      obtain ⟨hasked, hshows⟩ := hfirst answers
        (fun entry hentry => hagree entry (List.mem_append_left _ hentry)) hgiven
      obtain ⟨hasked', hshows'⟩ := hsecond answers
        (fun entry hentry => hagree entry (List.mem_append_right _ hentry))
        ⟨hgiven, hshows a rfl⟩
      rw [List.filter_append]
      exact ⟨hasked.append hasked', hshows'⟩

theorem weaken {work : Work ε σ α} {logged : Work ε (σ × List (Option Slot × Node)) α}
    {Given' : Answers → Prop} (h : Covers visit Given sites work logged Shows)
    (hgiven : ∀ answers, Given' answers → Given answers) :
    Covers visit Given' sites work logged Shows := by
  intro state
  obtain ⟨given, asked, result, final, hsub, hrun, hlogged, hshows⟩ := h state
  refine ⟨given, asked, result, final, hsub, hrun, hlogged, ?_⟩
  intro answers hagree hgiven'
  exact hshows answers hagree (hgiven answers hgiven')

theorem ask (visit : Visitor (Work ε σ)) (above : List Slot) (n : Node) :
    Covers visit (fun answers => answers.opens above = true) [⟨above, n⟩] (visit above.head? n)
      (visit.logged above.head? n) (fun answers verdict => answers ⟨above, n⟩ = verdict) := by
  intro state
  rcases hrun : (visit above.head? n).run state with ⟨result, final⟩
  have hlogged : ∀ log, (visit.logged above.head? n).run (state, log) =
      (result, (final, log ++ [Site.question ⟨above, n⟩])) := by
    intro log
    simp only [Visitor.logged, ExceptT.run_mk, hrun]
    rfl
  have hself : ∀ answers : Answers, answers.opens above = true →
      [(⟨above, n⟩ : Site)].filter (fun s => answers.opens s.above) = [⟨above, n⟩] := by
    intro answers hopen
    simp only [List.filter_cons, hopen, if_true, List.filter_nil]
  rcases result with e | verdict
  · refine ⟨[], [⟨above, n⟩], .error e, final, List.nil_sublist _, rfl, hlogged, ?_⟩
    intro answers _ hopen
    rw [hself answers hopen]
    refine ⟨.failed hrun, ?_⟩
    intro verdict hverdict
    cases hverdict
  · refine ⟨[(⟨above, n⟩, verdict)], [⟨above, n⟩], .ok verdict, final, List.Sublist.refl _, rfl,
      hlogged, ?_⟩
    intro answers hagree hopen
    have hanswer : answers ⟨above, n⟩ = verdict := hagree (⟨above, n⟩, verdict) List.mem_cons_self
    rw [hself answers hopen]
    refine ⟨.answered (by rw [hanswer]; exact hrun) .done, ?_⟩
    intro verdict' hverdict
    cases hverdict
    exact hanswer

end Covers

/-! ### Traversals -/

mutual

theorem Node.covers_traverse (visit : Visitor (Work ε σ)) (above : List Slot) :
    ∀ n : Node, Covers visit (fun answers => answers.opens above = true) (n.sites above)
      (n.traverse visit above.head?) (n.traverse visit.logged above.head?)
      (fun answers outcome => outcome.nodes n = n.substituted answers above)
  | ⟨id, kind, span, children⟩ => by
    rw [Node.traverse, Node.traverse, Node.sites]
    refine Covers.bind (Covers.ask visit above ⟨id, kind, span, children⟩) ?_
    intro verdict
    -- unless the traversal goes on, nothing below the node is asked about
    have hsettled : verdict.settles = true → ∀ answers : Answers,
        answers.opens above = true ∧ answers ⟨above, ⟨id, kind, span, children⟩⟩ = verdict →
        (sitesAll above ⟨id, kind, span, children⟩ 0 children).filter
          (fun s => answers.opens s.above) = [] := by
      intro hsettles answers hgiven
      exact answers.filter_below (n := ⟨id, kind, span, children⟩) (by rw [hgiven.2, hsettles])
    cases verdict with
    | keep =>
      refine Covers.pure _ fun answers hgiven => ⟨hsettled rfl answers hgiven, ?_⟩
      rw [Node.substituted, hgiven.2]
      rfl
    | replace replacement =>
      refine Covers.pure _ fun answers hgiven => ⟨hsettled rfl answers hgiven, ?_⟩
      rw [Node.substituted, hgiven.2]
      rfl
    | remove =>
      refine Covers.pure _ fun answers hgiven => ⟨hsettled rfl answers hgiven, ?_⟩
      rw [Node.substituted, hgiven.2]
      rfl
    | descend =>
      have hbelow := covers_traverseAll visit above ⟨id, kind, span, children⟩ 0 children
      rw [← List.append_nil (sitesAll above ⟨id, kind, span, children⟩ 0 children)]
      refine Covers.bind hbelow fun rest => Covers.pure _ fun answers hgiven => ⟨rfl, ?_⟩
      obtain ⟨⟨-, hanswer⟩, hnodes, hunchanged⟩ := hgiven
      rw [Remaining.nodes_close hunchanged, Node.substituted, hanswer, hnodes]
      rfl

theorem covers_traverseAll (visit : Visitor (Work ε σ)) (above : List Slot) (parent : Node)
    (index : Nat) :
    ∀ nodes : List Node,
      Covers visit (fun answers => answers.opens above = true ∧ answers ⟨above, parent⟩ = .descend)
        (sitesAll above parent index nodes) (traverseAll visit parent index nodes)
        (traverseAll visit.logged parent index nodes)
        (fun answers rest => rest.nodes = substitutedAll answers above parent index nodes
          ∧ (rest.changed = false → rest.nodes = nodes))
  | [] => by
    rw [traverseAll, traverseAll, sitesAll]
    refine Covers.pure _ fun answers _ => ⟨rfl, ?_, fun _ => rfl⟩
    rw [substitutedAll]
    rfl
  | n :: rest => by
    rw [traverseAll, traverseAll, sitesAll]
    have hfirst := Node.covers_traverse visit (⟨parent, index⟩ :: above) n
    have hrest := covers_traverseAll visit above parent (index + 1) rest
    refine Covers.bind (hfirst.weaken ?_) fun outcome => ?_
    · rintro answers ⟨hopen, hparent⟩
      rw [Answers.opens_cons, hparent, hopen]
      rfl
    · rw [← List.append_nil (sitesAll above parent (index + 1) rest)]
      refine Covers.bind (hrest.weaken fun answers hgiven => hgiven.1) fun remaining =>
        Covers.pure _ fun answers hgiven => ⟨rfl, ?_, ?_⟩
      · obtain ⟨⟨-, hnodes⟩, hnodes', -⟩ := hgiven
        rw [Remaining.nodes_add, hnodes, hnodes', substitutedAll]
      · obtain ⟨-, -, hunchanged⟩ := hgiven
        intro hchanged
        obtain ⟨rfl, hchanged'⟩ := Remaining.changed_add hchanged
        rw [Remaining.nodes_add, hunchanged hchanged']
        rfl

end

/-! ### The law of traversal -/

/-- Answers about different sites can be continued to all sites. -/
theorem exists_answers (given : List (Site × Verdict)) :
    (given.map Prod.fst).Nodup → ∃ answers : Answers,
      (∀ entry ∈ given, answers entry.1 = entry.2)
      ∧ ∀ s, s ∉ given.map Prod.fst → answers s = .descend := by
  classical
  induction given with
  | nil =>
    intro _
    exact ⟨fun _ => .descend, fun entry hentry => absurd hentry List.not_mem_nil, fun _ _ => rfl⟩
  | cons first given ih =>
    intro hnodup
    rw [List.map_cons, List.nodup_cons] at hnodup
    obtain ⟨answers, hagree, hother⟩ := ih hnodup.2
    refine ⟨fun s => if s = first.1 then first.2 else answers s, ?_, ?_⟩
    · intro entry hentry
      rcases List.mem_cons.mp hentry with rfl | hentry
      · exact if_pos rfl
      · have hne : entry.1 ≠ first.1 := by
          intro heq
          rw [← heq] at hnodup
          exact hnodup.1 (List.mem_map_of_mem hentry)
        exact (if_neg hne).trans (hagree entry hentry)
    · intro s hs
      rw [List.map_cons, List.mem_cons, not_or] at hs
      exact (if_neg hs.1).trans (hother s hs.2)

theorem SourceFile.run_traverse (file : SourceFile) (visit : Visitor (Work ε σ)) (state : σ)
    {result : Except ε Outcome} {final : σ}
    (h : (file.root.traverse visit none).run state = (result, final)) :
    (file.traverse visit).run state = (result.map file.revise, final) := by
  rw [SourceFile.traverse, Result.run_bind, h]
  cases result <;> rfl

theorem SourceFile.file_revise (file : SourceFile) (outcome : Outcome) :
    (file.revise outcome).file =
      file.withRoot ((outcome.nodes file.root).head?.getD (file.root.withChildren [])) := by
  cases outcome <;> rfl

/-- **The law of traversal.**  For every visitor, whatever its state, answers and failures, and
    for every tree: the visitor is asked about the sites of the tree in preorder, except those
    below a site that it settled, each once, with the slot in which the node stands, until its
    first failure.  The state is handed from question to question.  If there is no failure the
    result is the tree with the answers put in.  A file is treated like its root, and if the
    root is removed it stays without children. -/
theorem Node.traverse_asks (visit : Visitor (Work ε σ)) (slot : Option Slot) (n : Node)
    (state : σ) :
    (n.sites slot.toList).map Site.node = n.subtrees
    ∧ (n.sites slot.toList).Nodup
    ∧ (∀ s ∈ n.sites slot.toList,
        s = ⟨slot.toList, n⟩ ∨ s.StandsIn (n.sites slot.toList))
    ∧ ∃ (answers : Answers) (asked : List Site) (result : Except ε Outcome) (final : σ),
        (n.traverse visit slot).run state = (result, final)
        ∧ (n.traverse visit.logged slot).run (state, []) =
            (result, (final, asked.map Site.question))
        ∧ Asked visit answers ((n.sites slot.toList).filter fun s => answers.opens s.above) state
            (result.map fun _ => ()) final asked
        ∧ (∀ outcome, result = .ok outcome →
            asked = (n.sites slot.toList).filter (fun s => answers.opens s.above)
            ∧ outcome.nodes n = n.substituted answers slot.toList)
        ∧ (slot = none → ∀ name text,
            (SourceFile.traverse ⟨name, text, n⟩ visit).run state =
              (result.map (SourceFile.revise ⟨name, text, n⟩), final)
            ∧ ∀ outcome, result = .ok outcome →
                (SourceFile.revise ⟨name, text, n⟩ outcome).file =
                  ⟨name, text, (n.substituted answers []).head?.getD (n.withChildren [])⟩) := by
  refine ⟨Node.map_node_sites _ n, Node.nodup_sites _ n, Node.standsIn_sites _ n, ?_⟩
  have hcovers := Node.covers_traverse visit slot.toList n
  rw [Option.head?_toList] at hcovers
  obtain ⟨given, asked, result, final, hsub, hrun, hlogged, hshown⟩ := hcovers state
  obtain ⟨answers, hagree, hother⟩ := exists_answers given ((Node.nodup_sites _ n).sublist hsub)
  -- the slot of the tree itself is open, since nothing was answered about its parent
  have hopen : answers.opens slot.toList = true := by
    cases slot with
    | none => rfl
    | some slot =>
      have houter : (⟨[], slot.parent⟩ : Site) ∉ given.map Prod.fst := by
        intro hmem
        have hsuffix := Node.suffix_above _ n _ (hsub.subset hmem)
        exact absurd hsuffix.length_le (by simp)
      rw [Option.toList_some, Answers.opens_cons, hother _ houter]
      rfl
  obtain ⟨hasked, hnodes⟩ := hshown answers hagree hopen
  refine ⟨answers, asked, result, final, hrun, hlogged [], hasked, ?_, ?_⟩
  · rintro outcome rfl
    exact ⟨hasked.eq_of_ok, hnodes outcome rfl⟩
  · rintro rfl name text
    refine ⟨SourceFile.run_traverse ⟨name, text, n⟩ visit state hrun, ?_⟩
    intro outcome houtcome
    have hroot := hnodes outcome houtcome
    rw [Option.toList_none] at hroot
    rw [SourceFile.file_revise]
    simp only [hroot, SourceFile.withRoot]

end Transclude

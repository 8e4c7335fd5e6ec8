/-
  Transclude/Proofs/Tree/Plan.lean
  ================================
  **Traversals whose answers are known beforehand.**

  A *plan* is a visitor without effects: its answer at a node follows from the
  node and its slot.  Carrying out a plan has a description that says nothing of
  kept nodes and flags: `Node.rebuilt` puts the answers into the tree and rebuilds
  every node that was gone into.  The traversal, which keeps what it can, leaves the
  same nodes (`nodes_outcome`), and rebuilds nothing where all answers are to go on
  (`outcome_eq_kept`).

  Most visitors of use are a plan together with an action: they do something at a
  node and then answer as planned.  Going through a tree with such a visitor is
  doing the actions at the sites that the plan reaches, in preorder, and then
  carrying out the plan (`traverse_plan`).  An action that fails ends the
  traversal, whatever the plan says about the rest.
-/
import Transclude.Proofs.Tree.Sites

namespace Transclude

/-- A visitor whose answers depend on nothing but the node and its slot. -/
abbrev Plan := Visitor Id

def Verdict.settles : Verdict → Bool
  | .descend => false
  | .keep | .replace _ | .remove => true

/-- Whether a traversal by a plan comes below the given slots: it has to go into each of
    their parents. -/
def Plan.opens (plan : Plan) : List Slot → Bool
  | [] => true
  | slot :: above => !(plan above.head? slot.parent).settles && Plan.opens plan above

/-- Whether a traversal by a plan asks about the node of a site. -/
def Site.reached (plan : Plan) (s : Site) : Bool := plan.opens s.above

/-- What becomes of a node when a plan is carried out. -/
def Node.outcome (plan : Plan) (slot : Option Slot) (n : Node) : Outcome :=
  (n.traverse plan slot).run

def remaining (plan : Plan) (parent : Node) (index : Nat) (nodes : List Node) : Remaining :=
  (traverseAll plan parent index nodes).run

theorem Node.outcome_eq (plan : Plan) (slot : Option Slot) (n : Node) :
    n.outcome plan slot =
      match plan slot n with
      | .keep => .kept
      | .replace replacement => .changed replacement
      | .remove => .removed
      | .descend => (remaining plan n 0 n.children).close n := by
  cases n with
  | mk id kind span children =>
    rw [Node.outcome, Node.traverse]
    simp only [Id.run_bind]
    cases h : plan slot ⟨id, kind, span, children⟩ <;> rfl

@[simp] theorem remaining_nil (plan : Plan) (parent : Node) (index : Nat) :
    remaining plan parent index [] = .none := by
  rw [remaining, traverseAll]
  rfl

@[simp] theorem remaining_cons (plan : Plan) (parent : Node) (index : Nat) (n : Node)
    (rest : List Node) :
    remaining plan parent index (n :: rest) =
      (remaining plan parent (index + 1) rest).add n (n.outcome plan (some ⟨parent, index⟩)) := by
  rw [remaining, traverseAll]
  rfl

/-! ### Rebuilding everything -/

mutual

/-- What stands in the place of a node when a plan is carried out and every node that
    is gone into is built anew. -/
def Node.rebuilt (plan : Plan) (slot : Option Slot) : Node → List Node
  | ⟨id, kind, span, children⟩ =>
    match plan slot ⟨id, kind, span, children⟩ with
    | .keep => [⟨id, kind, span, children⟩]
    | .replace replacement => [replacement]
    | .remove => []
    | .descend => [⟨id, kind, span, rebuiltAll plan ⟨id, kind, span, children⟩ 0 children⟩]

def rebuiltAll (plan : Plan) (parent : Node) (index : Nat) : List Node → List Node
  | [] => []
  | n :: rest =>
    n.rebuilt plan (some ⟨parent, index⟩) ++ rebuiltAll plan parent (index + 1) rest

end

theorem Node.rebuilt_eq (plan : Plan) (slot : Option Slot) (n : Node) :
    n.rebuilt plan slot =
      match plan slot n with
      | .keep => [n]
      | .replace replacement => [replacement]
      | .remove => []
      | .descend => [n.withChildren (rebuiltAll plan n 0 n.children)] := by
  cases n
  rw [Node.rebuilt]
  rfl

/-- The nodes that an outcome leaves in the place of a node. -/
def Outcome.nodes (n : Node) : Outcome → List Node
  | .kept => [n]
  | .changed result => [result]
  | .removed => []

theorem Remaining.nodes_add (n : Node) (outcome : Outcome) (rest : Remaining) :
    (rest.add n outcome).nodes = outcome.nodes n ++ rest.nodes := by
  cases outcome <;> rfl

theorem Remaining.changed_add {n : Node} {outcome : Outcome} {rest : Remaining}
    (h : (rest.add n outcome).changed = false) : outcome = .kept ∧ rest.changed = false := by
  cases outcome with
  | kept => exact ⟨rfl, h⟩
  | changed result => exact absurd h (by simp [Remaining.add])
  | removed => exact absurd h (by simp [Remaining.add])

theorem nodes_remaining_of_unchanged (plan : Plan) (parent : Node) :
    ∀ (nodes : List Node) (index : Nat), (remaining plan parent index nodes).changed = false →
      (remaining plan parent index nodes).nodes = nodes := by
  intro nodes
  induction nodes with
  | nil =>
    intro index _
    rw [remaining_nil]
    rfl
  | cons n rest ih =>
    intro index h
    rw [remaining_cons] at h ⊢
    obtain ⟨hkept, hrest⟩ := Remaining.changed_add h
    rw [Remaining.nodes_add, hkept, ih (index + 1) hrest]
    rfl

/-- A node that was gone into is rebuilt around what is left of its children, whether
    the traversal keeps it or not. -/
theorem Remaining.nodes_close {n : Node} {rest : Remaining}
    (h : rest.changed = false → rest.nodes = n.children) :
    (rest.close n).nodes n = [n.withChildren rest.nodes] := by
  cases hchanged : rest.changed with
  | true => simp only [Remaining.close, hchanged, if_true, Outcome.nodes]
  | false =>
    -- the node is kept, which comes to the same since its children are as before
    rw [h hchanged]
    simp only [Remaining.close, hchanged, Bool.false_eq_true, if_false, Outcome.nodes]
    cases n
    rfl

mutual

/-- **Keeping nodes makes no difference to the result.**  A traversal leaves the nodes
    that are there when every node gone into is rebuilt. -/
theorem Node.nodes_outcome (plan : Plan) (slot : Option Slot) :
    ∀ n : Node, (n.outcome plan slot).nodes n = n.rebuilt plan slot
  | ⟨id, kind, span, children⟩ => by
    rw [Node.outcome_eq, Node.rebuilt]
    cases plan slot ⟨id, kind, span, children⟩ with
    | keep => rfl
    | replace replacement => rfl
    | remove => rfl
    | descend =>
      simp only
      rw [Remaining.nodes_close (nodes_remaining_of_unchanged plan _ children 0),
        nodes_remaining plan ⟨id, kind, span, children⟩ 0 children]
      rfl

theorem nodes_remaining (plan : Plan) (parent : Node) (index : Nat) :
    ∀ nodes : List Node,
      (remaining plan parent index nodes).nodes = rebuiltAll plan parent index nodes
  | [] => by
    rw [remaining_nil, rebuiltAll]
    rfl
  | n :: rest => by
    rw [remaining_cons, rebuiltAll, Remaining.nodes_add,
      Node.nodes_outcome plan (some ⟨parent, index⟩) n,
      nodes_remaining plan parent (index + 1) rest]

end

mutual

/-- A tree in which every answer is to go on is kept as it is. -/
theorem Node.outcome_eq_kept (plan : Plan) (slot : Option Slot) :
    ∀ n : Node, (∀ m ∈ n.subtrees, ∀ slot, plan slot m = .descend) → n.outcome plan slot = .kept
  | ⟨id, kind, span, children⟩, h => by
    rw [Node.subtrees] at h
    have hself : plan slot ⟨id, kind, span, children⟩ = .descend := h _ List.mem_cons_self slot
    have hbelow := changed_remaining plan ⟨id, kind, span, children⟩ 0 children
      (fun m hm => h m (List.mem_cons_of_mem _ hm))
    rw [Node.outcome_eq, hself]
    simp only [Remaining.close, hbelow, Bool.false_eq_true, if_false]

theorem changed_remaining (plan : Plan) (parent : Node) (index : Nat) :
    ∀ nodes : List Node, (∀ m ∈ subtreesAll nodes, ∀ slot, plan slot m = .descend) →
      (remaining plan parent index nodes).changed = false
  | [], _ => by
    rw [remaining_nil]
    rfl
  | n :: rest, h => by
    rw [subtreesAll] at h
    have hfirst := Node.outcome_eq_kept plan (some ⟨parent, index⟩) n
      (fun m hm => h m (List.mem_append_left _ hm))
    have hrest := changed_remaining plan parent (index + 1) rest
      (fun m hm => h m (List.mem_append_right _ hm))
    rw [remaining_cons, hfirst]
    exact hrest

end

/-! ### Which sites are reached -/

/-- What is answered about each site.  Unlike a plan, answers may differ for equal nodes in
    equal slots. -/
abbrev Answers := Site → Verdict

namespace Answers

/-- Whether a traversal with these answers comes below the given slots. -/
def opens (answers : Answers) : List Slot → Bool
  | [] => true
  | slot :: above => !(answers ⟨above, slot.parent⟩).settles && opens answers above

theorem opens_cons (answers : Answers) (slot : Slot) (above : List Slot) :
    answers.opens (slot :: above) =
      (!(answers ⟨above, slot.parent⟩).settles && answers.opens above) := rfl

theorem opens_of_suffix (answers : Answers) {outer inner : List Slot} (h : outer <:+ inner)
    (hinner : answers.opens inner = true) : answers.opens outer = true := by
  obtain ⟨between, rfl⟩ := h
  induction between with
  | nil => exact hinner
  | cons slot between ih =>
    rw [List.cons_append, opens_cons, Bool.and_eq_true] at hinner
    exact ih hinner.2

/-- Nothing below a node that is settled is asked about. -/
theorem filter_below (answers : Answers) {above : List Slot} {n : Node}
    (hsettled : (answers ⟨above, n⟩).settles = true) :
    (sitesAll above n 0 n.children).filter (fun s => answers.opens s.above) = [] := by
  apply List.filter_eq_nil_iff.mpr
  intro s hs hopen
  obtain ⟨index, -, hsuffix⟩ := suffix_above_all above n 0 n.children s hs
  have hslot := answers.opens_of_suffix hsuffix hopen
  simp only [opens_cons, hsettled, Bool.not_true, Bool.false_and, Bool.false_eq_true] at hslot

end Answers

theorem Plan.opens_cons (plan : Plan) (slot : Slot) (above : List Slot) :
    plan.opens (slot :: above) =
      (!(plan above.head? slot.parent).settles && plan.opens above) := rfl

theorem Plan.opens_eq (plan : Plan) (above : List Slot) :
    plan.opens above = Answers.opens (fun s => plan s.slot? s.node) above := by
  induction above with
  | nil => rfl
  | cons slot above ih =>
    rw [Plan.opens_cons, Answers.opens_cons, ih]
    rfl

/-! ### Plans with actions -/

section Actions

variable {m : Type → Type} [Monad m] {visit : Visitor m}
  {act : Option Slot → Node → m PUnit} {plan : Plan}

def perform (act : Option Slot → Node → m PUnit) (sites : List Site) : m PUnit :=
  sites.forM fun s => act s.slot? s.node

theorem perform_cons (s : Site) (sites : List Site) :
    perform act (s :: sites) = act s.slot? s.node >>= fun _ => perform act sites := rfl

variable [LawfulMonad m]

theorem perform_append (sites more : List Site) :
    perform act (sites ++ more) = perform act sites >>= fun _ => perform act more :=
  List.forM_append

theorem perform_settled {above : List Slot} {n : Node}
    (hopen : plan.opens above = true) (hsettled : (plan above.head? n).settles = true) :
    perform act ((n.sites above).filter (Site.reached plan)) = act above.head? n := by
  have hbelow : (sitesAll above n 0 n.children).filter (Site.reached plan) = [] := by
    have hnone := Answers.filter_below (fun s => plan s.slot? s.node) hsettled
    simp only [← Plan.opens_eq] at hnone
    exact hnone
  have hself : Site.reached plan ⟨above, n⟩ = true := hopen
  rw [Node.sites_eq, List.filter_cons_of_pos hself, hbelow, perform_cons]
  exact bind_pure_unit

mutual

/-- **A traversal is the actions at the sites its plan reaches, and then the plan.** -/
theorem Node.traverse_plan
    (hvisit : ∀ slot n, visit slot n = act slot n >>= fun _ => pure (plan slot n))
    (above : List Slot) (hopen : plan.opens above = true) :
    ∀ n : Node, n.traverse visit above.head? =
      perform act ((n.sites above).filter (Site.reached plan)) >>= fun _ =>
        pure (n.outcome plan above.head?)
  | ⟨id, kind, span, children⟩ => by
    rw [Node.traverse, Node.outcome_eq, hvisit, bind_assoc]
    simp only [pure_bind]
    cases h : plan above.head? ⟨id, kind, span, children⟩ with
    | descend =>
      -- the one answer after which there is work below, with one more slot open
      have hself : Site.reached plan ⟨above, ⟨id, kind, span, children⟩⟩ = true := hopen
      have hbelow := traverseAll_plan hvisit above ⟨id, kind, span, children⟩ hopen h 0 children
      rw [Node.sites, List.filter_cons_of_pos hself, perform_cons, bind_assoc]
      simp only [hbelow, bind_assoc, pure_bind]
      rfl
    | keep => rw [perform_settled hopen (by rw [h]; rfl)]
    | replace replacement => rw [perform_settled hopen (by rw [h]; rfl)]
    | remove => rw [perform_settled hopen (by rw [h]; rfl)]

theorem traverseAll_plan
    (hvisit : ∀ slot n, visit slot n = act slot n >>= fun _ => pure (plan slot n))
    (above : List Slot) (parent : Node) (hopen : plan.opens above = true)
    (hparent : plan above.head? parent = .descend) :
    ∀ (index : Nat) (nodes : List Node), traverseAll visit parent index nodes =
      perform act ((sitesAll above parent index nodes).filter (Site.reached plan)) >>= fun _ =>
        pure (remaining plan parent index nodes)
  | _, [] => by
    rw [traverseAll, remaining_nil, sitesAll]
    exact (pure_bind PUnit.unit fun _ => pure Remaining.none).symm
  | index, n :: rest => by
    have hbelow : plan.opens (⟨parent, index⟩ :: above) = true := by
      rw [Plan.opens_cons, hparent, hopen]
      rfl
    have hfirst := Node.traverse_plan hvisit (⟨parent, index⟩ :: above) hbelow n
    have hrest := traverseAll_plan hvisit above parent hopen hparent (index + 1) rest
    rw [List.head?_cons] at hfirst
    rw [traverseAll, remaining_cons, sitesAll, List.filter_append, perform_append, hfirst, hrest]
    simp only [bind_assoc, pure_bind]

end

end Actions

end Transclude

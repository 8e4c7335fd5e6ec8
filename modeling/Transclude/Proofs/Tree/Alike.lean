/-
  Transclude/Proofs/Tree/Alike.lean
  =================================
  **Trees that differ in spans and in the names of callees.**

  Two trees are *alike* when they have the same shape, ids and kinds, except that an
  identifier that is called, the first child of a call, may have another name.
  Whether it may is up to the node above, so the relation carries a flag, set for
  callees.  A tree that is alike without the flag is alike with it, and so the
  relation with the flag set is the one that is asked of nodes about which nothing
  is known.

  Plans that answer alike nodes in the same way turn alike trees into alike trees,
  and keep the one whenever they keep the other (`outcome_alike`).
-/
import Mathlib.Data.List.Forall2
import Transclude.Proofs.Tree.Plan

namespace Transclude

inductive Kind.Alike : Bool → Kind → Kind → Prop
  | same {callee : Bool} (kind : Kind) : Kind.Alike callee kind kind
  | renamed (name name' : String) : Kind.Alike true (.identifier name) (.identifier name')

mutual

/-- Two nodes are alike, where they stand as callees if the flag is set. -/
inductive Node.Alike : Bool → Node → Node → Prop
  | node {callee : Bool} {id : NodeId} {kind kind' : Kind} {span span' : Span}
      {children children' : List Node} (kinds : Kind.Alike callee kind kind')
      (below : AlikeAll (decide (kind = .callExpression)) children children') :
      Node.Alike callee ⟨id, kind, span, children⟩ ⟨id, kind', span', children'⟩

/-- Two rows of nodes are alike, of which the first are callees if the flag is set. -/
inductive AlikeAll : Bool → List Node → List Node → Prop
  | nil {callee : Bool} : AlikeAll callee [] []
  | cons {callee : Bool} {n n' : Node} {rest rest' : List Node} (first : Node.Alike callee n n')
      (more : AlikeAll false rest rest') : AlikeAll callee (n :: rest) (n' :: rest')

end

/-- Slots are alike that have the same index below alike parents. -/
structure Slot.Alike (slot slot' : Slot) : Prop where
  parent : slot.parent.Alike true slot'.parent
  index : slot.index = slot'.index

structure Site.Alike (s s' : Site) : Prop where
  node : s.node.Alike true s'.node
  above : List.Forall₂ Slot.Alike s.above s'.above

/-! ### The flag -/

theorem Kind.Alike.of_false {callee : Bool} {kind kind' : Kind} (h : Kind.Alike false kind kind') :
    Kind.Alike callee kind kind' := by
  cases h
  exact .same _

theorem Node.Alike.of_false {callee : Bool} {n n' : Node} (h : n.Alike false n') :
    n.Alike callee n' := by
  cases h with
  | node kinds below => exact .node kinds.of_false below

theorem Node.Alike.weaken {callee : Bool} {n n' : Node} (h : n.Alike callee n') :
    n.Alike true n' := by
  cases callee with
  | true => exact h
  | false => exact h.of_false

theorem AlikeAll.of_false {callee : Bool} {nodes nodes' : List Node}
    (h : AlikeAll false nodes nodes') : AlikeAll callee nodes nodes' := by
  cases h with
  | nil => exact .nil
  | cons first more => exact .cons first.of_false more

mutual

theorem Node.Alike.refl (callee : Bool) : ∀ n : Node, n.Alike callee n
  | ⟨_, kind, _, children⟩ => .node (.same kind) (AlikeAll.refl _ children)

theorem AlikeAll.refl (callee : Bool) : ∀ nodes : List Node, AlikeAll callee nodes nodes
  | [] => .nil
  | n :: rest => .cons (Node.Alike.refl callee n) (AlikeAll.refl false rest)

end

/-! ### What alike nodes have in common -/

namespace Node.Alike

variable {callee : Bool} {n n' : Node}

theorem id_eq (h : n.Alike callee n') : n.id = n'.id := by
  cases h
  rfl

theorem kind_eq (h : n.Alike false n') : n.kind = n'.kind := by
  cases h with
  | node kinds below =>
    cases kinds
    rfl

/-- An identifier cannot be taken for anything else. -/
theorem kind_iff (h : n.Alike callee n') (kind : Kind) (hkind : ∀ name, kind ≠ .identifier name) :
    n.kind = kind ↔ n'.kind = kind := by
  cases h with
  | node kinds below =>
    cases kinds with
    | same => exact Iff.rfl
    | renamed name name' =>
      exact ⟨fun h => absurd h.symm (hkind name), fun h => absurd h.symm (hkind name')⟩

theorem children (h : n.Alike callee n') :
    AlikeAll (decide (n.kind = .callExpression)) n.children n'.children := by
  cases h with
  | node kinds below => exact below

theorem withChildren (h : n.Alike callee n') {nodes nodes' : List Node}
    (hnodes : AlikeAll (decide (n.kind = .callExpression)) nodes nodes') :
    (n.withChildren nodes).Alike callee (n'.withChildren nodes') := by
  cases h with
  | node kinds below => exact .node kinds hnodes

theorem children_of_kind (h : n.Alike callee n') (hkind : n.kind ≠ .callExpression) :
    AlikeAll false n.children n'.children := by
  have hbelow := h.children
  rwa [decide_eq_false hkind] at hbelow

end Node.Alike

namespace AlikeAll

variable {nodes nodes' : List Node}

theorem tail {callee : Bool} (h : AlikeAll callee nodes nodes') :
    AlikeAll false nodes.tail nodes'.tail := by
  cases h with
  | nil => exact .nil
  | cons first more => exact more

theorem forall₂ (h : AlikeAll false nodes nodes') :
    List.Forall₂ (Node.Alike false) nodes nodes' := by
  induction nodes generalizing nodes' with
  | nil =>
    cases h
    exact .nil
  | cons n rest ih =>
    cases h with
    | cons first more => exact .cons first (ih more)

/-- What is read off alike nodes in the same way is the same, node by node. -/
theorem map_eq {α : Type} {f : Node → α} (h : AlikeAll false nodes nodes')
    (hf : ∀ n n' : Node, n.Alike false n' → f n = f n') : nodes.map f = nodes'.map f := by
  have hrelated := h.forall₂
  clear h
  induction hrelated with
  | nil => rfl
  | cons first _ ih => rw [List.map_cons, List.map_cons, hf _ _ first, ih]

theorem getElem? (h : AlikeAll false nodes nodes') (i : Nat) :
    Option.Rel (Node.Alike false) nodes[i]? nodes'[i]? := by
  have hrelated := h.forall₂
  clear h
  induction hrelated generalizing i with
  | nil => exact .none
  | cons first _ ih =>
    cases i with
    | zero => exact .some first
    | succ i => simpa using ih i

theorem head? (h : AlikeAll false nodes nodes') :
    Option.Rel (Node.Alike false) nodes.head? nodes'.head? := by
  simpa [List.head?_eq_getElem?] using h.getElem? 0

theorem getLast? (h : AlikeAll false nodes nodes') :
    Option.Rel (Node.Alike false) nodes.getLast? nodes'.getLast? := by
  rw [List.getLast?_eq_getElem?, List.getLast?_eq_getElem?, ← h.forall₂.length_eq]
  exact h.getElem? _

end AlikeAll

theorem bind_eq_of_alike {α : Type} {first first' : Option Node} {f : Node → Option α}
    (h : Option.Rel (Node.Alike false) first first')
    (hf : ∀ n n' : Node, n.Alike false n' → f n = f n') : first.bind f = first'.bind f := by
  cases h with
  | none => rfl
  | some h => exact hf _ _ h

/-! ### Sites -/

mutual

theorem Node.Alike.sites {callee : Bool} {above above' : List Slot}
    (habove : List.Forall₂ Slot.Alike above above') :
    ∀ {n n' : Node}, n.Alike callee n' →
      List.Forall₂ Site.Alike (n.sites above) (n'.sites above')
  | ⟨id, kind, span, children⟩, ⟨id', kind', span', children'⟩, h => by
    rw [Node.sites, Node.sites]
    exact .cons ⟨h.weaken, habove⟩ (AlikeAll.sites habove h.weaken 0 h.children)

theorem AlikeAll.sites {callee : Bool} {above above' : List Slot}
    (habove : List.Forall₂ Slot.Alike above above') {parent parent' : Node}
    (hparent : parent.Alike true parent') (index : Nat) :
    ∀ {nodes nodes' : List Node}, AlikeAll callee nodes nodes' →
      List.Forall₂ Site.Alike (sitesAll above parent index nodes)
        (sitesAll above' parent' index nodes')
  | [], [], _ => by
    rw [sitesAll, sitesAll]
    exact .nil
  | n :: rest, n' :: rest', .cons first more => by
    have hslot : Slot.Alike ⟨parent, index⟩ ⟨parent', index⟩ := ⟨hparent, rfl⟩
    rw [sitesAll, sitesAll]
    exact List.rel_append (Node.Alike.sites (.cons hslot habove) first)
      (AlikeAll.sites habove hparent (index + 1) more)

end

theorem Site.Alike.slot? {s s' : Site} (h : s.Alike s') :
    Option.Rel Slot.Alike s.slot? s'.slot? := by
  obtain ⟨above, n⟩ := s
  obtain ⟨above', n'⟩ := s'
  cases h.above with
  | nil => exact .none
  | cons first _ => exact .some first

/-! ### Carrying out plans -/

inductive Outcome.Alike (callee : Bool) : Outcome → Outcome → Prop
  | kept : Outcome.Alike callee .kept .kept
  | changed {result result' : Node} (results : result.Alike callee result') :
      Outcome.Alike callee (.changed result) (.changed result')
  | removed : Outcome.Alike callee .removed .removed

structure Remaining.Alike (callee : Bool) (rest rest' : Remaining) : Prop where
  nodes : AlikeAll callee rest.nodes rest'.nodes
  changed : rest.changed = rest'.changed

theorem Remaining.Alike.add {callee : Bool} {n n' : Node} {outcome outcome' : Outcome}
    {rest rest' : Remaining} (hnode : n.Alike callee n') (houtcome : outcome.Alike callee outcome')
    (hrest : rest.Alike false rest') :
    (rest.add n outcome).Alike callee (rest'.add n' outcome') := by
  cases houtcome with
  | kept => exact ⟨.cons hnode hrest.nodes, hrest.changed⟩
  | changed results => exact ⟨.cons results hrest.nodes, rfl⟩
  -- what comes next is no callee in either tree, and so it may move up
  | removed => exact ⟨hrest.nodes.of_false, rfl⟩

theorem Remaining.Alike.close {callee : Bool} {n n' : Node} {rest rest' : Remaining}
    (hnode : n.Alike callee n')
    (hrest : rest.Alike (decide (n.kind = .callExpression)) rest') :
    (rest.close n).Alike callee (rest'.close n') := by
  unfold Remaining.close
  rw [← hrest.changed]
  split
  · exact .changed (hnode.withChildren hrest.nodes)
  · exact .kept

/-- Two plans give the same answers about alike nodes, as far as they are asked about. -/
def Plan.Agree (Asked : Node → Prop) (plan plan' : Plan) : Prop :=
  ∀ ⦃slot slot' : Option Slot⦄ ⦃n n' : Node⦄, Asked n → Option.Rel Slot.Alike slot slot' →
    n.Alike true n' → plan slot n = plan' slot' n'

section Plans

variable {plan plan' : Plan} {Asked : Node → Prop}

mutual

/-- **Plans that agree on alike nodes have alike outcomes.** -/
theorem outcome_alike (hplans : Plan.Agree Asked plan plan') {callee : Bool}
    {slot slot' : Option Slot} (hslot : Option.Rel Slot.Alike slot slot') :
    ∀ {n n' : Node}, (∀ m ∈ n.subtrees, Asked m) → n.Alike callee n' →
      (n.outcome plan slot).Alike callee (n'.outcome plan' slot')
  | ⟨id, kind, span, children⟩, ⟨id', kind', span', children'⟩, hasked, h => by
    rw [Node.subtrees] at hasked
    have hanswer := hplans (hasked _ List.mem_cons_self) hslot h.weaken
    have hbelow := remaining_alike hplans h.weaken 0
      (fun m hm => hasked m (List.mem_cons_of_mem _ hm)) h.children
    rw [Node.outcome_eq, Node.outcome_eq, ← hanswer]
    cases plan slot ⟨id, kind, span, children⟩ with
    | keep => exact .kept
    | replace replacement => exact .changed (.refl callee replacement)
    | remove => exact .removed
    | descend => exact Remaining.Alike.close h hbelow

theorem remaining_alike (hplans : Plan.Agree Asked plan plan') {callee : Bool}
    {parent parent' : Node} (hparent : parent.Alike true parent') (index : Nat) :
    ∀ {nodes nodes' : List Node}, (∀ m ∈ subtreesAll nodes, Asked m) →
      AlikeAll callee nodes nodes' →
      (remaining plan parent index nodes).Alike callee (remaining plan' parent' index nodes')
  | [], [], _, _ => by
    rw [remaining_nil, remaining_nil]
    exact ⟨.nil, rfl⟩
  | n :: rest, n' :: rest', hasked, .cons first more => by
    have hslot : Slot.Alike ⟨parent, index⟩ ⟨parent', index⟩ := ⟨hparent, rfl⟩
    rw [subtreesAll] at hasked
    rw [remaining_cons, remaining_cons]
    apply Remaining.Alike.add first
    · exact outcome_alike hplans (.some hslot)
        (fun m hm => hasked m (List.mem_append_left _ hm)) first
    · exact remaining_alike hplans hparent (index + 1)
        (fun m hm => hasked m (List.mem_append_right _ hm)) more

end

end Plans

end Transclude

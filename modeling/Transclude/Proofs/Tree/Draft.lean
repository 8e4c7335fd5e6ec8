/-
  Transclude/Proofs/Tree/Draft.lean
  =================================
  **What a construction makes, and in which order.**

  A draft is a tree of which some parts are there already and the others are still to
  be made.  Assembling it makes these, every node right after its children and
  siblings from left to right, and lists them as they are made.  Each node that is
  made takes the next id, so the list is numbered from the first id on, and assembling
  fails exactly if the last word would have to be handed out (`settles_assemble`).

  No part is dropped or used twice: the nodes of the result are the nodes of the
  given parts and those on the list.  A node is made after all nodes below it, so its
  id is above theirs if the ids of the given parts are below the first one.
-/
import Transclude.Proofs.Tree.Sites
import Transclude.Tree.Builder

namespace Transclude

/-! ### Forests -/

theorem subtreesAll_eq_flatMap (nodes : List Node) :
    subtreesAll nodes = nodes.flatMap Node.subtrees := by
  induction nodes with
  | nil => rw [subtreesAll, List.flatMap_nil]
  | cons n rest ih => rw [subtreesAll, List.flatMap_cons, ih]

theorem subtreesAll_append (nodes more : List Node) :
    subtreesAll (nodes ++ more) = subtreesAll nodes ++ subtreesAll more := by
  simp only [subtreesAll_eq_flatMap, List.flatMap_append]

theorem subtreesAll_perm {nodes more : List Node} (h : nodes.Perm more) :
    (subtreesAll nodes).Perm (subtreesAll more) := by
  simp only [subtreesAll_eq_flatMap]
  exact h.flatMap_right Node.subtrees

theorem sublist_subtreesAll {nodes : List Node} {n : Node} (h : n ∈ nodes) :
    n.subtrees.Sublist (subtreesAll nodes) := by
  obtain ⟨front, back, rfl⟩ := List.append_of_mem h
  rw [subtreesAll_append, subtreesAll]
  exact (List.sublist_append_left _ _).trans (List.sublist_append_right _ _)

/-- The id of a node as a number. -/
def Node.number (n : Node) : Nat := n.id.val.toNat

/-! ### Steps of a construction -/

namespace Builder

variable {α β : Type} {first : Builder α} {next : UInt32}

theorem bind_of_ok {a : α} {later : UInt32} (h : first next = .ok (a, later))
    (rest : α → Builder β) : (first >>= rest) next = rest a later := by
  simp only [bind, StateT.bind, h, Except.bind]

theorem bind_of_error {violation : Violation} (h : first next = .error violation)
    (rest : α → Builder β) : (first >>= rest) next = .error violation := by
  simp only [bind, StateT.bind, h, Except.bind]

end Builder

/-! ### Drafts -/

/-- A tree with parts that are there and parts that are still to be made. -/
inductive Draft where
  | given (tree : Node)
  | make (kind : Kind) (parts : List Draft)

namespace Draft

def leaf (kind : Kind) : Draft := .make kind []

mutual

/-- Makes what is still to be made.  The second component lists the nodes as they are
    made. -/
def assemble : Draft → Builder (Node × List Node)
  | .given tree => return (tree, [])
  | .make kind parts => do
    let (children, made) ← assembleAll parts
    let n ← Builder.node kind children
    return (n, made ++ [n])

def assembleAll : List Draft → Builder (List Node × List Node)
  | [] => return ([], [])
  | draft :: drafts => do
    let (tree, made) ← draft.assemble
    let (trees, later) ← assembleAll drafts
    return (tree :: trees, made ++ later)

end

mutual

/-- How many nodes are still to be made. -/
def size : Draft → Nat
  | .given _ => 0
  | .make _ parts => sizeAll parts + 1

def sizeAll : List Draft → Nat
  | [] => 0
  | draft :: drafts => draft.size + sizeAll drafts

end

mutual

/-- The parts that are there, from left to right. -/
def givens : Draft → List Node
  | .given tree => [tree]
  | .make _ parts => givensAll parts

def givensAll : List Draft → List Node
  | [] => []
  | draft :: drafts => draft.givens ++ givensAll drafts

end

/-! ### Numbered lists -/

/-- Some trees have been assembled from given parts and from nodes that were made for them,
    with ids from `first` on. -/
structure Assembled (first : UInt32) (size : Nat) (given trees made : List Node) (next : UInt32) :
    Prop where
  next_eq : next.toNat = first.toNat + size
  numbers : made.map Node.number = List.range' first.toNat size
  nodes : (subtreesAll trees).Perm (subtreesAll given ++ made)
  above : (∀ d ∈ subtreesAll given, d.number < first.toNat) →
    ∀ n ∈ made, ∀ d ∈ subtreesAll n.children, d.number < n.number

namespace Assembled

variable {first middle next : UInt32} {size more : Nat}
variable {given others trees rest made later : List Node}

theorem nothing (first : UInt32) (trees : List Node) : Assembled first 0 trees trees [] first where
  next_eq := rfl
  numbers := rfl
  nodes := by rw [List.append_nil]
  above _ n hn := absurd hn List.not_mem_nil

theorem length (h : Assembled first size given trees made next) : made.length = size := by
  have hlength := congrArg List.length h.numbers
  simpa only [List.length_map, List.length_range'] using hlength

theorem number_lt (h : Assembled first size given trees made next)
    (hgiven : ∀ d ∈ subtreesAll given, d.number < first.toNat) :
    ∀ d ∈ subtreesAll trees, d.number < next.toNat := by
  intro d hd
  rw [h.next_eq]
  rcases List.mem_append.mp (h.nodes.mem_iff.mp hd) with hd | hd
  · exact Nat.lt_add_right size (hgiven d hd)
  · have hnumber : d.number ∈ List.range' first.toNat size := by
      rw [← h.numbers]
      exact List.mem_map_of_mem hd
    exact (List.mem_range'_1.mp hnumber).2

/-- What is assembled after something else continues its list and its numbers. -/
theorem append (h : Assembled first size given trees made middle)
    (hmore : Assembled middle more others rest later next) :
    Assembled first (size + more) (given ++ others) (trees ++ rest) (made ++ later) next where
  next_eq := by rw [hmore.next_eq, h.next_eq, Nat.add_assoc]
  numbers := by
    rw [List.map_append, h.numbers, hmore.numbers, h.next_eq, List.range'_append_1]
  nodes := by
    simp only [subtreesAll_append, List.append_assoc]
    apply (h.nodes.append hmore.nodes).trans
    rw [List.append_assoc]
    exact (List.perm_append_comm_assoc _ _ _).append_left _
  above := by
    simp only [subtreesAll_append, List.mem_append]
    intro hgiven n hn
    rcases hn with hn | hn
    · exact h.above (fun d hd => hgiven d (.inl hd)) n hn
    · apply hmore.above _ n hn
      intro d hd
      rw [h.next_eq]
      exact Nat.lt_add_right size (hgiven d (.inr hd))

/-- A node above the trees comes last on the list. -/
theorem node (h : Assembled first size given trees made middle) (kind : Kind)
    (hnext : next.toNat = middle.toNat + 1) :
    Assembled first (size + 1) given [⟨⟨middle⟩, kind, .dummy, trees⟩]
      (made ++ [⟨⟨middle⟩, kind, .dummy, trees⟩]) next where
  next_eq := by rw [hnext, h.next_eq, Nat.add_assoc]
  numbers := by
    rw [List.map_append, h.numbers, List.map_singleton, Node.number, h.next_eq,
      List.range'_1_concat]
  nodes := by
    rw [subtreesAll_singleton, Node.subtrees_eq, ← List.append_assoc]
    exact (h.nodes.cons _).trans (List.perm_append_singleton _ _).symm
  above := by
    intro hgiven n hn d hd
    rcases List.mem_append.mp hn with hn | hn
    · exact h.above hgiven n hn d hd
    · rw [List.mem_singleton.mp hn] at hd ⊢
      exact h.number_lt hgiven d hd

end Assembled

/-! ### What assembling comes to -/

/-- The last word, which is the id of synthesized nodes. -/
def lastWord : Nat := 4294967295

/-- Assembling comes to one of two ends: all is made, or the ids do not suffice. -/
def Settles {α : Type} (trees : α → List Node) (first : UInt32) (size : Nat) (given : List Node)
    (result : Except Violation ((α × List Node) × UInt32)) : Prop :=
  (∃ a made next, result = .ok ((a, made), next) ∧ Assembled first size given (trees a) made next) ∨
    (result = .error .idsExhausted ∧ lastWord < first.toNat + size)

theorem toNat_le_lastWord (word : UInt32) : word.toNat ≤ lastWord :=
  Nat.le_of_lt_succ word.toNat_lt

theorem node_eq (kind : Kind) (children : List Node) (next : UInt32) :
    (next.toNat = lastWord ∧ Builder.node kind children next = .error .idsExhausted) ∨
      ((next + 1).toNat = next.toNat + 1 ∧
        Builder.node kind children next = .ok (⟨⟨next⟩, kind, .dummy, children⟩, next + 1)) := by
  by_cases hlast : next = NodeId.dummy.val
  · left
    subst hlast
    exact ⟨rfl, rfl⟩
  · right
    have hnext : next.toNat ≠ lastWord := fun h => hlast (UInt32.toNat_inj.mp h)
    have hle := toNat_le_lastWord next
    refine ⟨?_, ?_⟩
    · rw [UInt32.toNat_add]
      apply Nat.mod_eq_of_lt
      rw [lastWord] at *
      simp only [UInt32.toNat_one]
      omega
    · have hfresh : Builder.fresh next = .ok (⟨next⟩, next + 1) := if_neg hlast
      rw [Builder.node, Builder.bind_of_ok hfresh]
      rfl

mutual

/-- **A draft is assembled with the next ids in turn, or the last word is among them.** -/
theorem settles_assemble :
    ∀ (draft : Draft) (first : UInt32),
      Settles (fun tree => [tree]) first draft.size draft.givens (draft.assemble first)
  | .given tree, first => by
    left
    rw [size, givens]
    exact ⟨tree, [], first, by rw [assemble]; rfl, .nothing first [tree]⟩
  | .make kind parts, first => by
    rw [size, givens, assemble]
    rcases settles_assembleAll parts first with
      ⟨children, made, middle, hparts, h⟩ | ⟨hparts, hlast⟩
    · rcases node_eq kind children middle with ⟨hlast, hnode⟩ | ⟨hnext, hnode⟩
      · right
        refine ⟨(Builder.bind_of_ok hparts _).trans (Builder.bind_of_error hnode _), ?_⟩
        rw [← Nat.add_assoc, ← h.next_eq, hlast]
        exact Nat.lt_succ_self _
      · left
        exact ⟨_, _, _, (Builder.bind_of_ok hparts _).trans (Builder.bind_of_ok hnode _),
          h.node kind hnext⟩
    · right
      exact ⟨Builder.bind_of_error hparts _, by omega⟩

theorem settles_assembleAll :
    ∀ (drafts : List Draft) (first : UInt32),
      Settles id first (sizeAll drafts) (givensAll drafts) (assembleAll drafts first)
  | [], first => by
    left
    rw [sizeAll, givensAll]
    exact ⟨[], [], first, by rw [assembleAll]; rfl, .nothing first []⟩
  | draft :: drafts, first => by
    rw [sizeAll, givensAll, assembleAll]
    rcases settles_assemble draft first with ⟨tree, made, middle, hdraft, h⟩ | ⟨hdraft, hlast⟩
    · rcases settles_assembleAll drafts middle with
        ⟨trees, later, next, hdrafts, hmore⟩ | ⟨hdrafts, hlast⟩
      · left
        exact ⟨_, _, _, (Builder.bind_of_ok hdraft _).trans (Builder.bind_of_ok hdrafts _),
          h.append hmore⟩
      · right
        refine ⟨(Builder.bind_of_ok hdraft _).trans (Builder.bind_of_error hdrafts _), ?_⟩
        rw [h.next_eq] at hlast
        omega
    · right
      exact ⟨Builder.bind_of_error hdraft _, by omega⟩

end

/-! ### Assembly without the list -/

def build (draft : Draft) : Builder Node := Prod.fst <$> draft.assemble

def buildAll (drafts : List Draft) : Builder (List Node) := Prod.fst <$> assembleAll drafts

theorem build_given (tree : Node) : (given tree).build = pure tree := by
  rw [build, assemble, map_pure]

theorem build_make (kind : Kind) (parts : List Draft) :
    (make kind parts).build = buildAll parts >>= Builder.node kind := by
  simp only [build, buildAll, assemble, map_bind, bind_map_left, map_pure, bind_pure]

theorem buildAll_nil : buildAll [] = pure [] := by
  rw [buildAll, assembleAll, map_pure]

theorem buildAll_cons (draft : Draft) (drafts : List Draft) :
    buildAll (draft :: drafts) = do
      let tree ← draft.build
      let trees ← buildAll drafts
      return tree :: trees := by
  simp only [build, buildAll, assembleAll, map_bind, bind_map_left, map_pure]

theorem buildAll_append (drafts more : List Draft) :
    buildAll (drafts ++ more) = do
      let trees ← buildAll drafts
      let rest ← buildAll more
      return trees ++ rest := by
  induction drafts with
  | nil => simp only [List.nil_append, buildAll_nil, pure_bind, bind_pure]
  | cons draft drafts ih =>
    simp only [List.cons_append, buildAll_cons, ih, bind_assoc, pure_bind]

theorem buildAll_given (trees : List Node) : buildAll (trees.map given) = pure trees := by
  induction trees with
  | nil => rw [List.map_nil, buildAll_nil]
  | cons tree trees ih => simp only [List.map_cons, buildAll_cons, build_given, ih, pure_bind]

theorem build_leaf (kind : Kind) : (leaf kind).build = Builder.node kind [] := by
  rw [leaf, build_make, buildAll_nil, pure_bind]

/-! ### Given parts -/

theorem givensAll_append (drafts more : List Draft) :
    givensAll (drafts ++ more) = givensAll drafts ++ givensAll more := by
  induction drafts with
  | nil => rw [List.nil_append, givensAll, List.nil_append]
  | cons draft drafts ih => rw [List.cons_append, givensAll, givensAll, ih, List.append_assoc]

theorem givensAll_given (trees : List Node) : givensAll (trees.map .given) = trees := by
  induction trees with
  | nil => rw [List.map_nil, givensAll]
  | cons tree trees ih => rw [List.map_cons, givensAll, givens, ih, List.singleton_append]

theorem givens_leaf (kind : Kind) : (leaf kind).givens = [] := by
  rw [leaf, givens, givensAll]

theorem givensAll_eq_nil {drafts : List Draft} (h : ∀ draft ∈ drafts, draft.givens = []) :
    givensAll drafts = [] := by
  induction drafts with
  | nil => rw [givensAll]
  | cons draft drafts ih =>
    rw [givensAll, h draft List.mem_cons_self, List.nil_append]
    exact ih (fun other hother => h other (List.mem_cons_of_mem draft hother))

end Draft

end Transclude

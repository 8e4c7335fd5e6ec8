/-
  Transclude/Proofs/Tree/Sites.lean
  =================================
  **The nodes of a tree, each with the way down to it.**

  A listing says at which depth an entry stands, but not below which nodes.  A
  *site* is a node together with the slots that lead to it from the root, the
  innermost first: the head of that list is the node's own slot, the parents in
  it are the node's proper ancestors, and its length is the node's depth.  What
  a traversal does at a node depends on the node, its slot and its ancestors, so
  every statement about whole runs is made over the list of sites.

  The sites of a tree, with everything but the entry forgotten, are its preorder
  listing (`map_entry_sites`); with everything but the node forgotten they are its
  subtrees (`map_node_sites`).
-/
import Transclude.Tree.Listing
import Transclude.Tree.Traversal

namespace Transclude

/-- A node of a tree and the slots above it, innermost first. -/
structure Site where
  above : List Slot
  node : Node

namespace Site

/-- Where the node stands; the root stands nowhere. -/
def slot? (s : Site) : Option Slot := s.above.head?

def depth (s : Site) : Nat := s.above.length

/-- The entry of the node in the preorder listing of its tree. -/
def entry (s : Site) : Entry := ⟨s.depth, s.node.kind, s.node.id, s.node.span⟩

end Site

mutual

/-- The sites of a tree in preorder, for a root below the given slots. -/
def Node.sites (above : List Slot) : Node → List Site
  | ⟨id, kind, span, children⟩ =>
    ⟨above, ⟨id, kind, span, children⟩⟩
      :: sitesAll above ⟨id, kind, span, children⟩ 0 children

def sitesAll (above : List Slot) (parent : Node) (index : Nat) : List Node → List Site
  | [] => []
  | n :: rest => n.sites (⟨parent, index⟩ :: above) ++ sitesAll above parent (index + 1) rest

end

theorem Node.sites_eq (above : List Slot) (n : Node) :
    n.sites above = ⟨above, n⟩ :: sitesAll above n 0 n.children := by
  cases n
  rw [Node.sites]

theorem Node.self_mem_sites (above : List Slot) (n : Node) : ⟨above, n⟩ ∈ n.sites above := by
  rw [Node.sites_eq]
  exact List.mem_cons_self

theorem Node.mem_sites_of_below {above : List Slot} {n : Node} {s : Site}
    (h : s ∈ sitesAll above n 0 n.children) : s ∈ n.sites above := by
  rw [Node.sites_eq]
  exact List.mem_cons_of_mem _ h

/-! ### Sites and listings -/

theorem listingAll_append (depth : Nat) (nodes more : List Node) :
    listingAll depth (nodes ++ more) = listingAll depth nodes ++ listingAll depth more := by
  induction nodes with
  | nil => simp only [List.nil_append, listingAll]
  | cons n rest ih => simp only [List.cons_append, listingAll, ih, List.append_assoc]

mutual

/-- **The entries of the sites are the preorder listing.** -/
theorem Node.map_entry_sites (above : List Slot) :
    ∀ n : Node, (n.sites above).map Site.entry = n.listing above.length
  | ⟨id, kind, span, children⟩ => by
    simp only [Node.sites, Node.listing, List.map_cons]
    rw [map_entry_sitesAll above ⟨id, kind, span, children⟩ 0 children]
    rfl

theorem map_entry_sitesAll (above : List Slot) (parent : Node) (index : Nat) :
    ∀ nodes : List Node,
      (sitesAll above parent index nodes).map Site.entry = listingAll (above.length + 1) nodes
  | [] => by simp only [sitesAll, listingAll, List.map_nil]
  | n :: rest => by
    simp only [sitesAll, listingAll, List.map_append]
    rw [Node.map_entry_sites (⟨parent, index⟩ :: above) n,
      map_entry_sitesAll above parent (index + 1) rest]
    rfl

end

mutual

theorem Node.map_node_sites (above : List Slot) :
    ∀ n : Node, (n.sites above).map Site.node = n.subtrees
  | ⟨id, kind, span, children⟩ => by
    simp only [Node.sites, Node.subtrees, List.map_cons]
    rw [map_node_sitesAll above ⟨id, kind, span, children⟩ 0 children]

theorem map_node_sitesAll (above : List Slot) (parent : Node) (index : Nat) :
    ∀ nodes : List Node,
      (sitesAll above parent index nodes).map Site.node = subtreesAll nodes
  | [] => by simp only [sitesAll, subtreesAll, List.map_nil]
  | n :: rest => by
    simp only [sitesAll, subtreesAll, List.map_append]
    rw [Node.map_node_sites (⟨parent, index⟩ :: above) n,
      map_node_sitesAll above parent (index + 1) rest]

end

theorem Site.node_mem_subtrees {above : List Slot} {n : Node} {s : Site}
    (h : s ∈ n.sites above) : s.node ∈ n.subtrees := by
  rw [← Node.map_node_sites above n]
  exact List.mem_map_of_mem h

/-! ### Subtrees -/

theorem Node.subtrees_eq (n : Node) : n.subtrees = n :: subtreesAll n.children := by
  cases n
  rw [Node.subtrees]

theorem Node.self_mem_subtrees (n : Node) : n ∈ n.subtrees := by
  rw [Node.subtrees_eq]
  exact List.mem_cons_self

theorem subtreesAll_singleton (n : Node) : subtreesAll [n] = n.subtrees := by
  rw [subtreesAll, subtreesAll, List.append_nil]

theorem mem_subtreesAll_append {nodes more : List Node} {m : Node} :
    m ∈ subtreesAll (nodes ++ more) ↔ m ∈ subtreesAll nodes ∨ m ∈ subtreesAll more := by
  induction nodes with
  | nil =>
    rw [List.nil_append, subtreesAll]
    exact ⟨Or.inr, fun h => h.resolve_left List.not_mem_nil⟩
  | cons n rest ih =>
    rw [List.cons_append, subtreesAll, subtreesAll, List.mem_append, List.mem_append, ih, or_assoc]

/-! ### The way down -/

mutual

/-- The slots above a tree are above all of its sites. -/
theorem Node.suffix_above (above : List Slot) :
    ∀ (n : Node) (s : Site), s ∈ n.sites above → above <:+ s.above
  | ⟨id, kind, span, children⟩, s, h => by
    rw [Node.sites] at h
    rcases List.mem_cons.mp h with rfl | h
    · exact List.suffix_rfl
    · obtain ⟨index, -, hindex⟩ := suffix_above_all above ⟨id, kind, span, children⟩ 0 children s h
      exact (List.suffix_cons _ _).trans hindex

theorem suffix_above_all (above : List Slot) (parent : Node) (index : Nat) :
    ∀ (nodes : List Node) (s : Site), s ∈ sitesAll above parent index nodes →
      ∃ i, index ≤ i ∧ (⟨parent, i⟩ :: above) <:+ s.above
  | [], s, h => by
    rw [sitesAll] at h
    exact absurd h List.not_mem_nil
  | n :: rest, s, h => by
    rw [sitesAll] at h
    rcases List.mem_append.mp h with h | h
    · exact ⟨index, Nat.le_refl _, Node.suffix_above (⟨parent, index⟩ :: above) n s h⟩
    · obtain ⟨i, hi, hsuffix⟩ := suffix_above_all above parent (index + 1) rest s h
      exact ⟨i, Nat.le_of_succ_le hi, hsuffix⟩

end

mutual

/-- **No two sites of a tree are the same**: they differ in the way down, if in nothing
    else. -/
theorem Node.nodup_sites (above : List Slot) : ∀ n : Node, (n.sites above).Nodup
  | ⟨id, kind, span, children⟩ => by
    rw [Node.sites, List.nodup_cons]
    refine ⟨?_, nodup_sitesAll above ⟨id, kind, span, children⟩ 0 children⟩
    intro h
    obtain ⟨index, -, hsuffix⟩ := suffix_above_all above ⟨id, kind, span, children⟩ 0 children _ h
    have hlength := hsuffix.length_le
    simp only [List.length_cons] at hlength
    omega

theorem nodup_sitesAll (above : List Slot) (parent : Node) (index : Nat) :
    ∀ nodes : List Node, (sitesAll above parent index nodes).Nodup
  | [] => by
    rw [sitesAll]
    exact List.nodup_nil
  | n :: rest => by
    rw [sitesAll, List.nodup_append]
    refine ⟨Node.nodup_sites (⟨parent, index⟩ :: above) n,
      nodup_sitesAll above parent (index + 1) rest, ?_⟩
    rintro s hs s' hs' rfl
    -- the same slots would end in two different ones of the same parent
    have hfirst := Node.suffix_above (⟨parent, index⟩ :: above) n s hs
    obtain ⟨i, hi, hrest⟩ := suffix_above_all above parent (index + 1) rest s hs'
    have hslots := (List.suffix_of_suffix_length_le hfirst hrest (Nat.le_refl _)).eq_of_length rfl
    simp only [List.cons.injEq, Slot.mk.injEq, true_and, and_true] at hslots
    omega

end

mutual

/-- The sites of the tree at a site are sites of the whole tree. -/
theorem Node.sites_subset (above : List Slot) :
    ∀ (n : Node) (s : Site), s ∈ n.sites above → s.node.sites s.above ⊆ n.sites above
  | ⟨id, kind, span, children⟩, s, h => by
    rw [Node.sites] at h
    rcases List.mem_cons.mp h with rfl | h
    · exact List.Subset.refl _
    · rw [Node.sites]
      exact List.Subset.trans (sitesAll_subset above ⟨id, kind, span, children⟩ 0 children s h)
        (List.subset_cons_self _ _)

theorem sitesAll_subset (above : List Slot) (parent : Node) (index : Nat) :
    ∀ (nodes : List Node) (s : Site), s ∈ sitesAll above parent index nodes →
      s.node.sites s.above ⊆ sitesAll above parent index nodes
  | [], s, h => by
    rw [sitesAll] at h
    exact absurd h List.not_mem_nil
  | n :: rest, s, h => by
    rw [sitesAll] at h ⊢
    rcases List.mem_append.mp h with h | h
    · exact List.subset_append_of_subset_left _
        (Node.sites_subset (⟨parent, index⟩ :: above) n s h)
    · exact List.subset_append_of_subset_right _
        (sitesAll_subset above parent (index + 1) rest s h)

end

/-- A site stands at the place that its slot names, below the site of its parent. -/
def Site.StandsIn (s : Site) (sites : List Site) : Prop :=
  ∃ slot above, s.above = slot :: above ∧ ⟨above, slot.parent⟩ ∈ sites
    ∧ slot.parent.children[slot.index]? = some s.node

theorem Site.StandsIn.mono {s : Site} {sites more : List Site} (h : s.StandsIn sites)
    (hmore : sites ⊆ more) : s.StandsIn more := by
  obtain ⟨slot, above, habove, hparent, hplace⟩ := h
  exact ⟨slot, above, habove, hmore hparent, hplace⟩

mutual

/-- **Slots are true**: every site of a tree but that of the root stands below the site of
    its parent. -/
theorem Node.standsIn_sites (above : List Slot) :
    ∀ (n : Node) (s : Site), s ∈ n.sites above → s = ⟨above, n⟩ ∨ s.StandsIn (n.sites above)
  | ⟨id, kind, span, children⟩, s, h => by
    rw [Node.sites] at h
    rcases List.mem_cons.mp h with rfl | h
    · exact .inl rfl
    · right
      rw [Node.sites]
      exact standsIn_sitesAll above ⟨id, kind, span, children⟩ 0 children
        (fun i => by rw [Nat.zero_add]) s h

theorem standsIn_sitesAll (above : List Slot) (parent : Node) (index : Nat) :
    ∀ nodes : List Node, (∀ i, nodes[i]? = parent.children[index + i]?) →
      ∀ s ∈ sitesAll above parent index nodes,
        s.StandsIn (⟨above, parent⟩ :: sitesAll above parent index nodes)
  | [], _, s, h => by
    rw [sitesAll] at h
    exact absurd h List.not_mem_nil
  | n :: rest, hplaces, s, h => by
    rw [sitesAll] at h ⊢
    rcases List.mem_append.mp h with h | h
    · rcases Node.standsIn_sites (⟨parent, index⟩ :: above) n s h with rfl | hstands
      · exact ⟨_, _, rfl, List.mem_cons_self, (hplaces 0).symm⟩
      · exact hstands.mono (List.subset_cons_of_subset _ (List.subset_append_left _ _))
    · have hrest := standsIn_sitesAll above parent (index + 1) rest
        (fun i => by rw [Nat.add_right_comm]; exact hplaces (i + 1)) s h
      exact hrest.mono (List.cons_subset_cons _ (List.subset_append_right _ _))

end

theorem Node.sites_child_subset (above : List Slot) {n child : Node} {i : Nat}
    (h : n.children[i]? = some child) : child.sites (⟨n, i⟩ :: above) ⊆ n.sites above := by
  have hall : ∀ (nodes : List Node) (index j : Nat), nodes[j]? = some child →
      child.sites (⟨n, index + j⟩ :: above) ⊆ sitesAll above n index nodes := by
    intro nodes
    induction nodes with
    | nil =>
      intro index j hj
      cases hj
    | cons first rest ih =>
      intro index j hj
      rw [sitesAll]
      cases j with
      | zero =>
        obtain rfl : first = child := Option.some.inj hj
        exact List.subset_append_left _ _
      | succ j =>
        rw [Nat.add_comm j, ← Nat.add_assoc]
        exact List.subset_append_of_subset_right _ (ih (index + 1) j hj)
  have hbelow := hall n.children 0 i h
  rw [Nat.zero_add] at hbelow
  intro s hs
  exact Node.mem_sites_of_below (hbelow hs)

section Descent

variable {Q : Site → Prop} {P : Node → Prop}

mutual

/-- What passes from each site to the sites of the children holds of a whole tree. -/
theorem Node.forall_subtrees (hself : ∀ s, Q s → P s.node)
    (hbelow : ∀ s i child, Q s → s.node.children[i]? = some child →
      Q ⟨⟨s.node, i⟩ :: s.above, child⟩) :
    ∀ (n : Node) (above : List Slot), Q ⟨above, n⟩ → ∀ m ∈ n.subtrees, P m
  | ⟨id, kind, span, children⟩, above, h, m, hm => by
    rw [Node.subtrees] at hm
    rcases List.mem_cons.mp hm with rfl | hm
    · exact hself _ h
    · refine forall_subtrees_all hself hbelow children ?_ m hm
      intro child hchild
      obtain ⟨i, hi⟩ := List.getElem?_of_mem hchild
      exact ⟨_, hbelow _ i child h hi⟩

theorem forall_subtrees_all (hself : ∀ s, Q s → P s.node)
    (hbelow : ∀ s i child, Q s → s.node.children[i]? = some child →
      Q ⟨⟨s.node, i⟩ :: s.above, child⟩) :
    ∀ nodes : List Node, (∀ n ∈ nodes, ∃ above, Q ⟨above, n⟩) → ∀ m ∈ subtreesAll nodes, P m
  | [], _, m, hm => by
    rw [subtreesAll] at hm
    exact absurd hm List.not_mem_nil
  | n :: rest, h, m, hm => by
    rw [subtreesAll] at hm
    rcases List.mem_append.mp hm with hm | hm
    · obtain ⟨above, hn⟩ := h n List.mem_cons_self
      exact Node.forall_subtrees hself hbelow n above hn m hm
    · exact forall_subtrees_all hself hbelow rest (fun n hn => h n (List.mem_cons_of_mem _ hn)) m hm

end

end Descent

end Transclude

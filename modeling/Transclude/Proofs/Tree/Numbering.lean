/-
  Transclude/Proofs/Tree/Numbering.lean
  =====================================
  **Trees that are built by hand are numbered without gaps and without repetition.**

  Every construction is the assembly of a draft (`Request.perform_eq`), so what holds
  of drafts holds of all of them.  A run makes one request after the other and uses
  every tree that it has at most once.  Along a run the nodes are numbered in the order
  in which they are made, the ids of the trees at hand are the ids that were handed
  out, and each node is above its descendants (`Run.numbered`).  The run can be
  continued by any request on trees at hand, unless this would hand out the last word
  (`Run.perform_eq_ok`).

  The last word is the id of synthesized nodes.  Since no run hands it out, symbols
  that are recorded for nodes built by hand are never found for synthesized ones.
-/
import Transclude.Proofs.Tree.Draft
import Transclude.Program
import Mathlib.Data.List.Nodup

namespace Transclude

namespace Builder

/-! ### Requests -/

/-- What a builder can be asked for, with the trees that go into it. -/
inductive Request where
  | node (kind : Kind) (children : List Node)
  | other (tag : String) (children : List Node)
  | identifier (name : String)
  | string (value : String)
  | number (text : String)
  | callOf (callee : Node) (arguments : List Node)
  | call (callee : String) (arguments : List Node)
  | member (object : Node) (name : String)
  | declaration (name : Node) (initializer : Option Node)
  | constant (name : String) (initializer : Node)
  | objectPattern (elements : List Node)
  | destructuring (elements : List Node) (initializer : Node)
  | elementOf (property : Option Node) (name : Node) (initializer : Option Node)
  | element (property : Option String) (name : String)
  | expression (tree : Node)
  | block (statements : List Node)
  | sourceFile (statements : List Node)
  | importOf (clause : Option Node) (specifier : String)
  | importClause (default : Option String) (named : Option (List String))
  | namespaceImport (name : String)

namespace Request

def perform : Request → Builder Node
  | .node kind children => Builder.node kind children
  | .other tag children => Builder.other tag children
  | .identifier name => Builder.identifier name
  | .string value => Builder.string value
  | .number text => Builder.number text
  | .callOf callee arguments => Builder.callOf callee arguments
  | .call callee arguments => Builder.call callee arguments
  | .member object name => Builder.member object name
  | .declaration name initializer => Builder.declaration name initializer
  | .constant name initializer => Builder.constant name initializer
  | .objectPattern elements => Builder.objectPattern elements
  | .destructuring elements initializer => Builder.destructuring elements initializer
  | .elementOf property name initializer => Builder.elementOf property name initializer
  | .element property name => Builder.element property name
  | .expression tree => Builder.expression tree
  | .block statements => Builder.block statements
  | .sourceFile statements => Builder.sourceFile statements
  | .importOf clause specifier => Builder.importOf clause specifier
  | .importClause default named => Builder.importClause default named
  | .namespaceImport name => Builder.namespaceImport name

/-- The trees that go into the requested one. -/
def arguments : Request → List Node
  | .identifier _ | .string _ | .number _ | .element _ _ | .importClause _ _
  | .namespaceImport _ => []
  | .node _ trees | .other _ trees | .call _ trees | .objectPattern trees | .block trees
  | .sourceFile trees => trees
  | .member tree _ | .constant _ tree | .expression tree => [tree]
  | .callOf callee arguments => callee :: arguments
  | .declaration name initializer => name :: initializer.toList
  | .destructuring elements initializer => elements ++ [initializer]
  | .elementOf property name initializer => property.toList ++ name :: initializer.toList
  | .importOf clause _ => clause.toList

def identifierDraft (name : String) : Draft := .leaf (.identifier name)

def numberDraft (text : String) : Draft :=
  match text.toList with
  | '-' :: magnitude =>
    .make (.prefixUnaryExpression .minus) [.leaf (.numericLiteral (String.ofList magnitude))]
  | _ => .leaf (.numericLiteral text)

def specifierDraft (name : String) : Draft := .make .importSpecifier [identifierDraft name]

def namedImportsDraft (names : List String) : Draft :=
  .make .namedImports (names.map specifierDraft)

/-- What is to be made for a request.  A part comes before a node if it stands below it or,
    below the same node, to its left. -/
def draft : Request → Draft
  | .node kind children => .make kind (children.map .given)
  | .other tag children => .make (.other tag) (children.map .given)
  | .identifier name => identifierDraft name
  | .string value => .leaf (.stringLiteral value)
  | .number text => numberDraft text
  | .callOf callee arguments => .make .callExpression (.given callee :: arguments.map .given)
  | .call callee arguments =>
    .make .callExpression (identifierDraft callee :: arguments.map .given)
  | .member object name => .make .propertyAccessExpression [.given object, identifierDraft name]
  | .declaration name initializer =>
    .make .variableDeclaration (.given name :: initializer.toList.map .given)
  | .constant name initializer =>
    .make .variableStatement
      [.make .variableDeclaration [identifierDraft name, .given initializer]]
  | .objectPattern elements => .make .objectBindingPattern (elements.map .given)
  | .destructuring elements initializer =>
    .make .variableStatement
      [.make .variableDeclaration
        [.make .objectBindingPattern (elements.map .given), .given initializer]]
  | .elementOf property name initializer =>
    .make (.bindingElement property.isSome)
      (property.toList.map .given ++ .given name :: initializer.toList.map .given)
  | .element property name =>
    .make (.bindingElement property.isSome)
      (property.toList.map identifierDraft ++ [identifierDraft name])
  | .expression tree => .make .expressionStatement [.given tree]
  | .block statements => .make .block (statements.map .given)
  | .sourceFile statements => .make .sourceFile (statements.map .given)
  | .importOf clause specifier =>
    .make .importDeclaration (clause.toList.map .given ++ [.leaf (.stringLiteral specifier)])
  | .importClause default named =>
    .make .importClause
      (default.toList.map identifierDraft ++ named.toList.map namedImportsDraft)
  | .namespaceImport name => .make .importClause [.make .namespaceImport [identifierDraft name]]

theorem number_of_minus {text : String} {magnitude : List Char}
    (h : text.toList = '-' :: magnitude) :
    Builder.number text =
      Builder.node (.numericLiteral (String.ofList magnitude)) [] >>= fun operand =>
        Builder.node (.prefixUnaryExpression .minus) [operand] := by
  simp only [Builder.number, h]

theorem number_of_plain {text : String} (h : ∀ magnitude, text.toList ≠ '-' :: magnitude) :
    Builder.number text = Builder.node (.numericLiteral text) [] := by
  rw [Builder.number]
  split
  next magnitude htext => exact absurd htext (h magnitude)
  next => rfl

theorem build_numberDraft (text : String) : (numberDraft text).build = Builder.number text := by
  rw [numberDraft]
  split
  next magnitude htext =>
    simp only [number_of_minus htext, Draft.build_make, Draft.buildAll_cons, Draft.buildAll_nil,
      Draft.build_leaf, pure_bind, bind_assoc]
  next hplain => rw [number_of_plain hplain, Draft.build_leaf]

theorem buildAll_specifierDraft (names : List String) :
    Draft.buildAll (names.map specifierDraft) = importSpecifiers names := by
  induction names with
  | nil => rw [List.map_nil, Draft.buildAll_nil, importSpecifiers]
  | cons name names ih =>
    simp only [List.map_cons, Draft.buildAll_cons, ih, importSpecifiers, specifierDraft,
      identifierDraft, Draft.build_make, Draft.build_leaf, Draft.buildAll_nil, Builder.identifier,
      pure_bind, bind_assoc]

/-- **Every construction is the assembly of its draft.** -/
theorem perform_eq (request : Request) : request.perform = request.draft.build := by
  cases request with
  | number text => exact (build_numberDraft text).symm
  | elementOf property name initializer =>
    simp only [perform, draft, Builder.elementOf, Draft.build_make, Draft.buildAll_append,
      Draft.buildAll_cons, Draft.buildAll_given, Draft.build_given, pure_bind]
  | element property name =>
    rcases property with _ | property <;>
    simp [perform, draft, Builder.element, Builder.elementOf, Builder.identifier, identifierDraft,
      Draft.build_make, Draft.buildAll_cons, Draft.buildAll_nil, Draft.build_leaf]
  | importOf clause specifier =>
    simp only [perform, draft, Builder.importOf, Builder.string, Draft.build_make,
      Draft.buildAll_append, Draft.buildAll_given, Draft.buildAll_cons, Draft.buildAll_nil,
      Draft.build_leaf, bind_assoc, pure_bind]
  | importClause default named =>
    rcases default with _ | default <;> rcases named with _ | named <;>
    simp [perform, draft, Builder.importClause, Builder.namedImports, Builder.identifier,
      identifierDraft, namedImportsDraft, Draft.build_make, Draft.buildAll_cons, Draft.buildAll_nil,
      Draft.build_leaf, buildAll_specifierDraft]
  | _ =>
    -- no parts that may be missing: the parts are made one after the other
    simp only [perform, draft, Builder.other, Builder.identifier, Builder.string, Builder.callOf,
      Builder.call, Builder.member, Builder.declaration, Builder.constant, Builder.objectPattern,
      Builder.destructuring, Builder.expression, Builder.block, Builder.sourceFile,
      Builder.namespaceImport, identifierDraft, Draft.build_make, Draft.buildAll_cons,
      Draft.buildAll_nil, Draft.buildAll_given, Draft.build_given, Draft.build_leaf, bind_assoc,
      pure_bind, Option.toList_some]

theorem givens_numberDraft (text : String) : (numberDraft text).givens = [] := by
  rw [numberDraft]
  split <;> simp only [Draft.givens, Draft.givensAll, Draft.givens_leaf, List.nil_append]

theorem givens_namedImportsDraft (names : List String) : (namedImportsDraft names).givens = [] := by
  rw [namedImportsDraft, Draft.givens]
  apply Draft.givensAll_eq_nil
  simp only [List.mem_map]
  rintro draft ⟨name, -, rfl⟩
  simp only [specifierDraft, identifierDraft, Draft.givens, Draft.givensAll, Draft.givens_leaf,
    List.nil_append]

theorem givens_importClause (default : Option String) (named : Option (List String)) :
    (importClause default named).draft.givens = [] := by
  rw [draft, Draft.givens]
  apply Draft.givensAll_eq_nil
  simp only [List.mem_append, List.mem_map]
  rintro part (⟨name, -, rfl⟩ | ⟨names, -, rfl⟩)
  · exact Draft.givens_leaf _
  · exact givens_namedImportsDraft names

/-- The parts of a draft that are there are the trees that the request comes with. -/
theorem givens_draft (request : Request) : request.draft.givens = request.arguments := by
  cases request with
  | number text => exact givens_numberDraft text
  | importClause default named => exact givens_importClause default named
  | element property name =>
    rcases property with _ | property <;>
    simp [draft, arguments, identifierDraft, Draft.givens, Draft.givensAll, Draft.givens_leaf]
  | _ =>
    simp [draft, arguments, identifierDraft, Draft.givens, Draft.givensAll, Draft.givens_leaf,
      Draft.givensAll_append, Draft.givensAll_given]

/-- **A request is carried out with the next ids in turn, or the last word is among them.** -/
theorem perform_cases (request : Request) (next : UInt32) :
    (∃ tree new next', request.perform next = .ok (tree, next') ∧
      request.draft.assemble next = .ok ((tree, new), next') ∧
      Draft.Assembled next request.draft.size request.arguments [tree] new next') ∨
    (request.perform next = .error .idsExhausted ∧
      request.draft.assemble next = .error .idsExhausted ∧
      Draft.lastWord < next.toNat + request.draft.size) := by
  rw [request.perform_eq, Draft.build, ← request.givens_draft]
  rcases request.draft.settles_assemble next with ⟨tree, new, next', heq, h⟩ | ⟨heq, hlast⟩
  · left
    exact ⟨tree, new, next', by simp only [Functor.map, StateT.map, heq]; rfl, heq, h⟩
  · right
    exact ⟨by simp only [Functor.map, StateT.map, heq]; rfl, heq, hlast⟩

/-- A request fails exactly if one of the ids that it needs is the last word. -/
theorem perform_eq_error_iff (request : Request) (next : UInt32) :
    request.perform next = .error .idsExhausted ↔
      ∃ k < request.draft.size, next.toNat + k = Draft.lastWord := by
  have hle := Draft.toNat_le_lastWord next
  rcases request.perform_cases next with ⟨tree, new, next', heq, -, h⟩ | ⟨heq, -, hlast⟩
  · rw [heq]
    constructor
    · intro hfails
      cases hfails
    · rintro ⟨k, hk, hlast⟩
      have hnext := Draft.toNat_le_lastWord next'
      rw [h.next_eq] at hnext
      omega
  · constructor
    · intro _
      exact ⟨Draft.lastWord - next.toNat, by omega, by omega⟩
    · intro _
      exact heq

end Request

/-! ### Runs -/

/-- A run makes requests one after the other, with ids from `first` on, and gives spans to
    trees in between.  It keeps the trees that are at hand, of which a request takes its
    arguments away, the nodes in the order in which they were made, and the next id. -/
inductive Run (first : UInt32) : List Request → List Node → List Node → UInt32 → Prop where
  | start : Run first [] [] [] first
  | request {requests owned made next} (request : Request) {rest : List Node} {tree : Node}
      {new : List Node} {next' : UInt32} :
      Run first requests owned made next →
      owned.Perm (request.arguments ++ rest) →
      request.perform next = .ok (tree, next') →
      request.draft.assemble next = .ok ((tree, new), next') →
      Run first (requests ++ [request]) (tree :: rest) (made ++ new) next'
  | spanned {requests owned made next} (span : Span) {tree : Node} {rest : List Node} :
      Run first requests owned made next →
      owned.Perm (tree :: rest) →
      Run first requests (tree.withSpan span :: rest) made next

/-- The state of a run as far as ids go. -/
structure Numbered (first : UInt32) (owned made : List Node) (next : UInt32) : Prop where
  next_eq : next.toNat = first.toNat + made.length
  numbers : made.map Node.number = List.range' first.toNat made.length
  ids : ((subtreesAll owned).map Node.id).Perm (made.map Node.id)
  above : ∀ n ∈ subtreesAll owned, ∀ d ∈ subtreesAll n.children, d.number < n.number

namespace Numbered

variable {first next next' : UInt32} {owned made rest given new : List Node} {tree : Node}

theorem mem_range (h : Numbered first owned made next) {n : Node} (hn : n ∈ subtreesAll owned) :
    n.number ∈ List.range' first.toNat made.length := by
  have hid : n.id ∈ made.map Node.id := h.ids.mem_iff.mp (List.mem_map_of_mem hn)
  obtain ⟨m, hm, hmn⟩ := List.mem_map.mp hid
  have hnumber : n.number = m.number := by rw [Node.number, Node.number, hmn]
  rw [hnumber, ← h.numbers]
  exact List.mem_map_of_mem hm

theorem start (first : UInt32) : Numbered first [] [] first where
  next_eq := rfl
  numbers := rfl
  ids := by rw [subtreesAll]
  above n hn := by rw [subtreesAll] at hn; exact absurd hn List.not_mem_nil

theorem perm (h : Numbered first owned made next) (howned : owned.Perm rest) :
    Numbered first rest made next where
  next_eq := h.next_eq
  numbers := h.numbers
  ids := ((subtreesAll_perm howned).map Node.id).symm.trans h.ids
  above n hn := h.above n ((subtreesAll_perm howned).mem_iff.mpr hn)

/-- What one request does to the ids. -/
theorem request {size : Nat} (h : Numbered first (given ++ rest) made next)
    (hnew : Draft.Assembled next size given [tree] new next') :
    Numbered first (tree :: rest) (made ++ new) next' := by
  have hlength := hnew.length
  have hnodes : (subtreesAll (tree :: rest)).Perm (subtreesAll (given ++ rest) ++ new) := by
    rw [← List.singleton_append, subtreesAll_append, subtreesAll_append, List.append_assoc]
    apply (hnew.nodes.append_right _).trans
    rw [List.append_assoc]
    exact List.perm_append_comm.append_left _
  refine ⟨?_, ?_, ?_, ?_⟩
  · rw [hnew.next_eq, h.next_eq, List.length_append, hlength, Nat.add_assoc]
  · rw [List.map_append, h.numbers, hnew.numbers, h.next_eq, List.length_append, hlength,
      List.range'_append_1]
  · apply (hnodes.map Node.id).trans
    rw [List.map_append, List.map_append]
    exact h.ids.append_right _
  · intro n hn
    rcases List.mem_append.mp (hnodes.mem_iff.mp hn) with hn | hn
    · exact h.above n hn
    · apply hnew.above _ n hn
      intro d hd
      rw [h.next_eq]
      exact (List.mem_range'_1.mp (h.mem_range (mem_subtreesAll_append.mpr (.inl hd)))).2

/-- A span changes no id. -/
theorem spanned (h : Numbered first (tree :: rest) made next) (span : Span) :
    Numbered first (tree.withSpan span :: rest) made next := by
  have hnodes : ∀ n,
      subtreesAll (n :: rest) = n :: (subtreesAll n.children ++ subtreesAll rest) := by
    intro n
    rw [subtreesAll, Node.subtrees_eq, List.cons_append]
  have hids := h.ids
  have habove := h.above
  rw [hnodes] at hids habove
  refine ⟨h.next_eq, h.numbers, ?_, ?_⟩
  · rw [hnodes]
    exact hids
  · rw [hnodes]
    intro n hn
    rcases List.mem_cons.mp hn with rfl | hn
    · exact habove tree List.mem_cons_self
    · exact habove n (List.mem_cons_of_mem tree hn)

theorem number_lt_lastWord (h : Numbered first owned made next) {n : Node} (hn : n ∈ made) :
    n.number < Draft.lastWord := by
  have hnumber : n.number ∈ List.range' first.toNat made.length := by
    rw [← h.numbers]
    exact List.mem_map_of_mem hn
  have hlast := (List.mem_range'_1.mp hnumber).2
  rw [← h.next_eq] at hlast
  exact Nat.lt_of_lt_of_le hlast (Draft.toNat_le_lastWord next)

theorem number_of_made (h : Numbered first owned made next) (k : Nat) (n : Node)
    (hn : made[k]? = some n) : n.number = first.toNat + k := by
  have hk : k < made.length := (List.getElem?_eq_some_iff.mp hn).1
  have hnumber : (made.map Node.number)[k]? = some n.number := by
    rw [List.getElem?_map, hn, Option.map_some]
  rw [h.numbers, List.getElem?_range' hk, Nat.one_mul] at hnumber
  exact (Option.some.inj hnumber).symm

theorem nodup_ids (h : Numbered first owned made next) :
    ((subtreesAll owned).map Node.id).Nodup := by
  rw [h.ids.nodup_iff]
  apply List.Nodup.of_map (fun id : NodeId => id.val.toNat)
  rw [List.map_map]
  change (made.map Node.number).Nodup
  rw [h.numbers]
  exact List.nodup_range'

end Numbered

namespace Run

variable {first next : UInt32} {requests : List Request} {owned made : List Node}

/-- **Along a run the ids are in order.** -/
theorem numbered (h : Run first requests owned made next) : Numbered first owned made next := by
  induction h with
  | start => exact .start first
  | @request _ _ _ next request rest tree new next' _ howned _ hdraft ih =>
    rcases request.perform_cases next with ⟨tree', new', last, -, heq, h⟩ | ⟨-, heq, -⟩
    · rw [hdraft] at heq
      cases heq
      exact (ih.perm howned).request h
    · rw [hdraft] at heq
      cases heq
  | spanned span _ howned ih => exact (ih.perm howned).spanned span

/-- **A run goes on** with any request on trees at hand for which the ids suffice. -/
theorem perform_eq_ok (h : Run first requests owned made next) {request : Request}
    {rest : List Node} (howned : owned.Perm (request.arguments ++ rest))
    (hids : request.perform next ≠ .error .idsExhausted) :
    ∃ tree new next', request.perform next = .ok (tree, next') ∧
      new.length = request.draft.size ∧
      Run first (requests ++ [request]) (tree :: rest) (made ++ new) next' := by
  rcases request.perform_cases next with ⟨tree, new, next', heq, hdraft, hnew⟩ | ⟨heq, -, -⟩
  · exact ⟨tree, new, next', heq, hnew.length, .request request h howned heq hdraft⟩
  · exact absurd heq hids

end Run

/-! ### Symbols of synthesized nodes -/

/-- Some run hands out the id. -/
def HandedOut (id : NodeId) : Prop :=
  ∃ first requests owned made next, Run first requests owned made next ∧ id ∈ made.map Node.id

theorem HandedOut.ne_dummy {id : NodeId} (h : HandedOut id) : id ≠ .dummy := by
  obtain ⟨first, requests, owned, made, next, hrun, hid⟩ := h
  obtain ⟨n, hn, rfl⟩ := List.mem_map.mp hid
  intro hdummy
  have hlast := hrun.numbered.number_lt_lastWord hn
  rw [Node.number, hdummy] at hlast
  exact Nat.lt_irrefl _ hlast

theorem lookup_synthesized {α : Type} {records : List (NodeId × α)}
    (h : ∀ record ∈ records, HandedOut record.1) {n : Node} (hn : n.isSynthesized) :
    records.lookup n.id = none := by
  have hdummy : n.id = .dummy := of_decide_eq_true hn
  rw [List.lookup_eq_none_iff]
  intro record hrecord
  rw [hdummy, bne_iff_ne]
  exact (h record hrecord).ne_dummy.symm

/-! ### Ids in turn -/

/-- **Ids are handed out in turn, from the first one up to the one before the last word.**
    Along every run the `k`-th node that is made has the `k`-th id.  The ids of the trees at
    hand are those that were handed out; in each tree they are distinct, none is that of
    synthesized nodes, and every node is above its descendants.  A request fails exactly if it
    would hand out the last word; otherwise the run goes on.  Symbols that are recorded under
    ids from such runs are never found for synthesized nodes. -/
theorem run_ids_in_turn {first next : UInt32} {requests : List Request} {owned made : List Node}
    (h : Run first requests owned made next) :
    (∀ k n, made[k]? = some n → n.id.val.toNat = first.toNat + k) ∧
    ((subtreesAll owned).map Node.id).Perm (made.map Node.id) ∧
    (∀ tree ∈ owned, (tree.subtrees.map Node.id).Nodup ∧
      ∀ n ∈ tree.subtrees, n.id ≠ .dummy ∧ ∀ d ∈ subtreesAll n.children, d.id.val < n.id.val) ∧
    (∀ request : Request,
      (request.perform next = .error .idsExhausted ↔
        ∃ k < request.draft.size, first.toNat + (made.length + k) = 4294967295) ∧
      ∀ rest, owned.Perm (request.arguments ++ rest) →
        request.perform next ≠ .error .idsExhausted →
        ∃ tree new next', request.perform next = .ok (tree, next') ∧
          new.length = request.draft.size ∧
          Run first (requests ++ [request]) (tree :: rest) (made ++ new) next') ∧
    (∀ program : Program, (∀ record ∈ program.calls, HandedOut record.1) →
      (∀ record ∈ program.modules, HandedOut record.1) →
      ∀ n : Node, n.isSynthesized →
        program.declaration? n = none ∧ program.modules.lookup n.id = none ∧
          program.declaringFile? n = none) := by
  have hnumbered := h.numbered
  refine ⟨?_, hnumbered.ids, ?_, ?_, ?_⟩
  · exact hnumbered.number_of_made
  · intro tree htree
    have hsub := sublist_subtreesAll htree
    refine ⟨hnumbered.nodup_ids.sublist (hsub.map Node.id), ?_⟩
    intro n hn
    have hmem := hsub.subset hn
    refine ⟨?_, fun d hd => UInt32.lt_iff_toNat_lt.mpr (hnumbered.above n hmem d hd)⟩
    exact HandedOut.ne_dummy ⟨_, _, _, _, _, h, hnumbered.ids.mem_iff.mp (List.mem_map_of_mem hmem)⟩
  · intro request
    refine ⟨?_, fun rest howned hids => h.perform_eq_ok howned hids⟩
    simp only [request.perform_eq_error_iff next, hnumbered.next_eq, Nat.add_assoc, Draft.lastWord]
  · intro program hcalls hmodules n hn
    have hmodule := lookup_synthesized hmodules hn
    refine ⟨lookup_synthesized hcalls hn, hmodule, ?_⟩
    rw [Program.declaringFile?, hmodule, Option.join_none]

namespace Sample

def literal : Node := ⟨⟨4294967292⟩, .stringLiteral "x", .dummy, []⟩

def callee : Node := ⟨⟨4294967293⟩, .identifier "f", .dummy, []⟩

def call : Node := ⟨⟨4294967294⟩, .callExpression, .dummy, [callee, literal]⟩

/-- A call with one argument, which takes the last three ids. -/
theorem run :
    Run 4294967292 [.string "x", .call "f" [literal]] [call] [literal, callee, call]
      4294967295 := by
  have harg : Run 4294967292 [.string "x"] [literal] [literal] 4294967293 :=
    .request (.string "x") .start .nil rfl rfl
  exact .request (.call "f" [literal]) harg (.refl _) rfl rfl

end Sample

theorem run_ids_in_turn_call :
    Run 4294967292 [.string "x", .call "f" [Sample.literal]] [Sample.call]
      [Sample.literal, Sample.callee, Sample.call] 4294967295 ∧
    (Sample.call.subtrees.map Node.id).Nodup ∧
    (Request.identifier "g").perform 4294967295 = .error .idsExhausted ∧
    ((Program.ofSources []).bindCall Sample.call.id ⟨some "f", ⟨"lib"⟩⟩).declaration?
      Sample.call.detached = none := by
  obtain ⟨-, -, htrees, hrequests, hprogram⟩ := run_ids_in_turn Sample.run
  refine ⟨Sample.run, (htrees _ List.mem_cons_self).1, ?_, ?_⟩
  · rw [(hrequests (.identifier "g")).1]
    exact ⟨0, by decide, rfl⟩
  · refine (hprogram _ ?_ ?_ _ rfl).1
    · intro record hrecord
      rw [List.mem_singleton.mp hrecord]
      exact ⟨_, _, _, _, _, Sample.run, by simp⟩
    · intro record hrecord
      exact absurd hrecord List.not_mem_nil

end Builder

end Transclude

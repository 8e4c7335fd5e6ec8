/-
  Transclude/Proofs/Tree/Layout.lean
  ==================================
  **The layout of trees.**

  Each kind of node says what its children are: so many statements, a name and
  perhaps an initializer, and so on.  Here this is a table.  A *role* is what a
  child is there for, and admits some kinds; a *layout* is a row of parts, each of
  which takes one child of a role, or perhaps one, or any number.  A foreign
  construct may stand in every role and may have any children.  A tree is well
  formed when the children of each of its nodes fit the layout of that node.

  Whether children fit is a matter of their kinds.  So the layout survives whatever
  the kinds survive: an expression in the place of a call fits wherever the call
  did, and an import can go, since no layout counts on there being one
  (`fits_of_turned`).
-/
import Transclude.Proofs.Literal

namespace Transclude

/-! ### Roles -/

/-- What a child is there for. -/
inductive Role where
  | statement
  | declaration
  /-- What is bound: an identifier or a pattern. -/
  | target
  | element
  | expression
  | property
  | propertyName
  | name
  | clause
  /-- Named imports or a namespace import. -/
  | imported
  | specifier
  | moduleSpecifier
  | anything
deriving DecidableEq, Repr

/-- The kinds that may stand in a role. -/
def Role.admits : Role → Kind → Bool
  | _, .other _ => true
  | .anything, _ => true
  | .statement, kind => match kind with
    | .block | .variableStatement | .expressionStatement | .returnStatement
    | .importDeclaration => true
    | _ => false
  | .declaration, kind => kind = .variableDeclaration
  | .target, kind => match kind with
    | .identifier _ | .objectBindingPattern | .arrayBindingPattern => true
    | _ => false
  | .element, kind => match kind with
    | .bindingElement _ => true
    | _ => false
  | .expression, kind => match kind with
    | .callExpression | .propertyAccessExpression | .identifier _ | .stringLiteral _
    | .numericLiteral _ | .prefixUnaryExpression _ | .trueKeyword | .falseKeyword | .nullKeyword
    | .arrayLiteralExpression | .objectLiteralExpression => true
    | _ => false
  | .property, kind => kind = .propertyAssignment
  | .propertyName, kind => match kind with
    | .identifier _ | .stringLiteral _ | .numericLiteral _ | .computedPropertyName => true
    | _ => false
  | .name, kind => match kind with
    | .identifier _ => true
    | _ => false
  | .clause, kind => kind = .importClause
  | .imported, kind => match kind with
    | .namedImports | .namespaceImport => true
    | _ => false
  | .specifier, kind => kind = .importSpecifier
  | .moduleSpecifier, kind => match kind with
    | .stringLiteral _ => true
    | _ => false

theorem Role.admits_of_call {role : Role} {kind : Kind}
    (hcall : role.admits .callExpression = true) (hkind : Role.expression.admits kind = true) :
    role.admits kind = true := by
  cases role with
  | expression => exact hkind
  | anything => cases kind <;> rfl
  | _ => simp [Role.admits] at hcall

/-! ### Layouts -/

inductive Part where
  | one (role : Role)
  | perhaps (role : Role)
  | many (role : Role)
deriving DecidableEq, Repr

/-- The children of each kind, part by part. -/
def Kind.layout : Kind → List Part
  | .sourceFile | .block => [.many .statement]
  | .variableStatement => [.many .declaration]
  | .variableDeclaration => [.one .target, .perhaps .expression]
  | .objectBindingPattern | .arrayBindingPattern => [.many .element]
  | .bindingElement true => [.one .propertyName, .one .target, .perhaps .expression]
  | .bindingElement false => [.one .target, .perhaps .expression]
  | .expressionStatement => [.one .expression]
  | .returnStatement => [.perhaps .expression]
  | .callExpression => [.one .expression, .many .expression]
  | .propertyAccessExpression => [.one .expression, .one .name]
  | .importDeclaration => [.perhaps .clause, .one .moduleSpecifier]
  | .importClause => [.perhaps .name, .perhaps .imported]
  | .namedImports => [.many .specifier]
  | .importSpecifier => [.perhaps .propertyName, .one .name]
  | .namespaceImport => [.one .name]
  | .identifier _ | .stringLiteral _ | .numericLiteral _ => []
  | .trueKeyword | .falseKeyword | .nullKeyword => []
  | .prefixUnaryExpression _ => [.one .expression]
  | .arrayLiteralExpression => [.many .expression]
  | .objectLiteralExpression => [.many .property]
  | .propertyAssignment => [.one .propertyName, .one .expression]
  | .computedPropertyName => [.one .expression]
  | .other _ => [.many .anything]

/-- One child in a role, and then what is accepted. -/
def Role.andThen (role : Role) (accept : List Kind → Bool) : List Kind → Bool
  | [] => false
  | kind :: kinds => role.admits kind && accept kinds

/-- The children that belong to a part, and then what is accepted. -/
def Part.andThen (accept : List Kind → Bool) : Part → List Kind → Bool
  | .one role, kinds => role.andThen accept kinds
  | .perhaps role, kinds => accept kinds || role.andThen accept kinds
  | .many _, [] => accept []
  | .many role, kind :: kinds =>
    accept (kind :: kinds) || role.admits kind && Part.andThen accept (.many role) kinds

/-- Whether a row of children is made up of the given parts. -/
def fits : List Part → List Kind → Bool
  | [] => List.isEmpty
  | part :: parts => part.andThen (fits parts)

namespace Node

/-- The children of a node are what its kind says. -/
def LaidOut (n : Node) : Prop := fits n.kind.layout (n.children.map Node.kind) = true

instance (n : Node) : Decidable n.LaidOut := inferInstanceAs (Decidable (_ = true))

def WellFormed (n : Node) : Prop := ∀ m ∈ n.subtrees, m.LaidOut

instance (n : Node) : Decidable n.WellFormed :=
  inferInstanceAs (Decidable (∀ m ∈ n.subtrees, m.LaidOut))

end Node

/-! ### What becomes of the kinds of children -/

/-- Rows of kinds of which the second comes about from the first when expressions are put
    in the places of calls and imports are taken out. -/
inductive Turned : List Kind → List Kind → Prop where
  | nil : Turned [] []
  | kept {kinds kinds' : List Kind} (kind : Kind) (rest : Turned kinds kinds') :
      Turned (kind :: kinds) (kind :: kinds')
  | replaced {kinds kinds' : List Kind} {kind : Kind}
      (expression : Role.expression.admits kind = true) (rest : Turned kinds kinds') :
      Turned (.callExpression :: kinds) (kind :: kinds')
  | removed {kinds kinds' : List Kind} (rest : Turned kinds kinds') :
      Turned (.importDeclaration :: kinds) kinds'

/-- Where the first of the children has not gone, another stands in its place that may
    stand in all of its roles. -/
theorem Turned.cons_cases {kind : Kind} {kinds turned : List Kind}
    (h : Turned (kind :: kinds) turned) :
    (kind = .importDeclaration ∧ Turned kinds turned) ∨
      ∃ kind' kinds', turned = kind' :: kinds' ∧ Turned kinds kinds'
        ∧ ∀ role : Role, role.admits kind = true → role.admits kind' = true := by
  cases h with
  | kept _ rest => exact .inr ⟨kind, _, rfl, rest, fun _ hadmits => hadmits⟩
  | replaced hkind rest =>
    exact .inr ⟨_, _, rfl, rest, fun _ hcall => Role.admits_of_call hcall hkind⟩
  | removed rest => exact .inl ⟨rfl, rest⟩

theorem Part.many_of_accept {accept : List Kind → Bool} (role : Role) {kinds : List Kind}
    (h : accept kinds = true) : (Part.many role).andThen accept kinds = true := by
  cases kinds <;> simp [Part.andThen, h]

section Turned

variable {accept : List Kind → Bool}
  (haccept : ∀ kinds turned, Turned kinds turned → accept kinds = true → accept turned = true)

include haccept

theorem Role.andThen_of_turned {role : Role} {kinds turned : List Kind} (h : Turned kinds turned)
    (hthen : role.andThen accept kinds = true) :
    role.andThen accept turned = true ∨
      role.admits .importDeclaration = true ∧ accept turned = true := by
  cases kinds with
  | nil => simp [Role.andThen] at hthen
  | cons kind kinds =>
    simp only [Role.andThen, Bool.and_eq_true] at hthen
    obtain ⟨hadmits, hrest⟩ := hthen
    rcases h.cons_cases with ⟨rfl, hturned⟩ | ⟨kind', kinds', rfl, hturned, hrole⟩
    · exact .inr ⟨hadmits, haccept _ _ hturned hrest⟩
    · left
      simp [Role.andThen, hrole role hadmits, haccept _ _ hturned hrest]

theorem Part.andThen_of_turned {part : Part} {kinds turned : List Kind}
    (hone : ∀ role, part = .one role → role.admits .importDeclaration = false)
    (h : Turned kinds turned) (hthen : part.andThen accept kinds = true) :
    part.andThen accept turned = true := by
  cases part with
  | one role =>
    simp only [Part.andThen] at hthen ⊢
    rcases Role.andThen_of_turned haccept h hthen with hturned | ⟨himport, -⟩
    · exact hturned
    · simp [hone role rfl] at himport
  | perhaps role =>
    simp only [Part.andThen, Bool.or_eq_true] at hthen ⊢
    rcases hthen with hskip | hthen
    · exact .inl (haccept _ _ h hskip)
    · -- an import that was there may have gone, and then nothing is there
      rcases Role.andThen_of_turned haccept h hthen with hturned | ⟨-, hskip⟩
      · exact .inr hturned
      · exact .inl hskip
  | many role =>
    induction kinds generalizing turned with
    | nil =>
      cases h
      exact hthen
    | cons kind kinds ih =>
      simp only [Part.andThen, Bool.or_eq_true, Bool.and_eq_true] at hthen
      rcases h.cons_cases with ⟨rfl, hrest⟩ | ⟨kind', kinds', rfl, hrest, hrole⟩
      · rcases hthen with hend | ⟨-, hmore⟩
        · exact Part.many_of_accept role (haccept _ _ h hend)
        · exact ih hrest hmore
      · simp only [Part.andThen, Bool.or_eq_true, Bool.and_eq_true]
        rcases hthen with hend | ⟨hadmits, hmore⟩
        · exact .inl (haccept _ _ h hend)
        · exact .inr ⟨hrole role hadmits, ih hrest hmore⟩

end Turned

/-- No layout counts on an import: where there must be a child, it is none. -/
theorem Kind.not_admits_import {kind : Kind} {role : Role} (h : .one role ∈ kind.layout) :
    role.admits .importDeclaration = false := by
  unfold Kind.layout at h
  split at h <;> grind [Role.admits]

/-- **A layout survives what the kinds of the children survive.** -/
theorem fits_of_turned {parts : List Part}
    (hone : ∀ role, .one role ∈ parts → role.admits .importDeclaration = false)
    (kinds turned : List Kind) (h : Turned kinds turned) (hfits : fits parts kinds = true) :
    fits parts turned = true := by
  induction parts generalizing kinds turned with
  | nil =>
    cases h with
    | nil => rfl
    | _ => simp [fits] at hfits
  | cons part parts ih =>
    have hrest := ih (fun role hrole => hone role (List.mem_cons_of_mem _ hrole))
    refine Part.andThen_of_turned hrest ?_ h hfits
    rintro role rfl
    exact hone role List.mem_cons_self

/-! ### Literals -/

theorem fits_many (role : Role) (kinds : List Kind) :
    fits [.many role] kinds = kinds.all role.admits := by
  induction kinds with
  | nil => rfl
  | cons kind kinds ih =>
    rw [fits, Part.andThen, ← fits, ih]
    simp [fits]

theorem forall_subtreesAll {P : Node → Prop} {nodes : List Node}
    (h : ∀ n ∈ nodes, ∀ m ∈ n.subtrees, P m) : ∀ m ∈ subtreesAll nodes, P m := by
  induction nodes with
  | nil => simp [subtreesAll]
  | cons n nodes ih =>
    intro m hm
    rw [subtreesAll, List.mem_append] at hm
    rcases hm with hm | hm
    · exact h n List.mem_cons_self m hm
    · exact ih (fun n hn => h n (List.mem_cons_of_mem _ hn)) m hm

namespace Literal

theorem wellFormed_synthesize {kind : Kind} {children : List Node}
    (hfits : fits kind.layout (children.map Node.kind) = true)
    (hchildren : ∀ child ∈ children, child.WellFormed) :
    (Node.synthesize kind children).WellFormed := by
  intro m hm
  rw [Node.synthesize, Node.subtrees] at hm
  rcases List.mem_cons.mp hm with rfl | hm
  · exact hfits
  · exact forall_subtreesAll hchildren m hm

theorem wellFormed_leaf {kind : Kind} (h : kind.layout = []) : (leaf kind).WellFormed :=
  wellFormed_synthesize (by rw [h]; rfl) (by simp)

theorem wellFormed_number (n : Json.Number) :
    (number n).WellFormed ∧ Role.expression.admits (number n).kind = true := by
  have hdigits : (leaf (.numericLiteral n.magnitudeText)).WellFormed := wellFormed_leaf rfl
  rw [number]
  cases n.negative with
  | false => exact ⟨hdigits, rfl⟩
  | true =>
    refine ⟨wellFormed_synthesize rfl ?_, rfl⟩
    simpa using hdigits

mutual

/-- **The literal of a value is a well-formed expression.** -/
theorem wellFormed_ofValue : ∀ (v : Json.Value) (literal : Node), ofValue v = .ok literal →
    literal.WellFormed ∧ Role.expression.admits literal.kind = true
  | .null, literal, h => by
    rw [ofValue] at h
    cases h
    exact ⟨wellFormed_leaf rfl, rfl⟩
  | .bool true, literal, h => by
    rw [ofValue] at h
    cases h
    exact ⟨wellFormed_leaf rfl, rfl⟩
  | .bool false, literal, h => by
    rw [ofValue] at h
    cases h
    exact ⟨wellFormed_leaf rfl, rfl⟩
  | .string text, literal, h => by
    rw [ofValue] at h
    cases h
    exact ⟨wellFormed_leaf rfl, rfl⟩
  | .number n, literal, h => by
    rw [ofValue] at h
    split at h
    · cases h
      exact wellFormed_number n
    · cases h
  | .array items, literal, h => by
    rw [ofValue, Result.bind_eq_ok_iff] at h
    obtain ⟨elements, helements, hliteral⟩ := h
    cases hliteral
    have hall := wellFormed_ofItems items elements helements
    refine ⟨wellFormed_synthesize ?_ fun element hmem => (hall element hmem).1, rfl⟩
    rw [Kind.layout, fits_many, List.all_map, List.all_eq_true]
    exact fun element hmem => (hall element hmem).2
  | .object members, literal, h => by
    rw [ofValue, Result.bind_eq_ok_iff] at h
    obtain ⟨properties, hproperties, hliteral⟩ := h
    cases hliteral
    have hall := wellFormed_ofMembers members properties hproperties
    refine ⟨wellFormed_synthesize ?_ fun property hmem => (hall property hmem).1, rfl⟩
    rw [Kind.layout, fits_many, List.all_map, List.all_eq_true]
    intro property hmem
    simp [Role.admits, (hall property hmem).2]

theorem wellFormed_ofItems : ∀ (items : List Json.Value) (elements : List Node),
    ofItems items = .ok elements → ∀ element ∈ elements,
      element.WellFormed ∧ Role.expression.admits element.kind = true
  | [], elements, h => by
    rw [ofItems] at h
    cases h
    simp
  | item :: items, elements, h => by
    simp only [ofItems, Result.bind_eq_ok_iff] at h
    obtain ⟨first, hfirst, rest, hrest, helements⟩ := h
    cases helements
    intro element hmem
    rcases List.mem_cons.mp hmem with rfl | hmem
    · exact wellFormed_ofValue item element hfirst
    · exact wellFormed_ofItems items rest hrest element hmem

theorem wellFormed_ofMembers : ∀ (members : List (String × Json.Value)) (properties : List Node),
    ofMembers members = .ok properties → ∀ property ∈ properties,
      property.WellFormed ∧ property.kind = .propertyAssignment
  | [], properties, h => by
    rw [ofMembers] at h
    cases h
    simp
  | (key, value) :: members, properties, h => by
    simp only [ofMembers, Result.bind_eq_ok_iff] at h
    obtain ⟨initializer, hinitializer, rest, hrest, hproperties⟩ := h
    cases hproperties
    intro member hmem
    rcases List.mem_cons.mp hmem with rfl | hmem
    · -- the name is a string, which may stand for a property name
      obtain ⟨hwell, hexpression⟩ := wellFormed_ofValue value initializer hinitializer
      have hname : (string key).WellFormed := wellFormed_leaf rfl
      have hquoted : Role.propertyName.admits (string key).kind = true := rfl
      refine ⟨wellFormed_synthesize ?_ ?_, rfl⟩
      · simp [Kind.layout, fits, Part.andThen, Role.andThen, hquoted, hexpression]
      · simp [hname, hwell]
    · exact wellFormed_ofMembers members rest hrest member hmem

end

end Literal

end Transclude

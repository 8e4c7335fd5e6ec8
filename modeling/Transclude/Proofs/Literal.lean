/-
  Transclude/Proofs/Literal.lean
  ==============================
  **Which values have a literal, and what it is made of.**

  The encoder goes through a value from left to right and gives up at the first
  number that no finite double is near to.  Seen from outside it looks at the
  numbers of the value, in document order, and at nothing else: `ofValue_numbers`.

  A literal is built of keywords, strings, numbers, arrays and objects only
  (`isLiteral_ofValue`).  None of these is a call or an import or introduces a
  name, so a literal that is put into a tree is never mistaken for one of them.
-/
import Transclude.Literal
import Transclude.Proofs.Result
import Transclude.Tree.Listing

namespace Transclude

namespace Json.Value

mutual

/-- The numbers in a value, in document order. -/
def numbers : Value → List Number
  | .number n => [n]
  | .array items => numbersOfItems items
  | .object members => numbersOfMembers members
  | .null | .bool _ | .string _ => []

def numbersOfItems : List Value → List Number
  | [] => []
  | item :: items => item.numbers ++ numbersOfItems items

def numbersOfMembers : List (String × Value) → List Number
  | [] => []
  | (_, value) :: members => value.numbers ++ numbersOfMembers members

end

/-- The first number of a value that no finite double is near to. -/
def outOfRange? (v : Value) : Option Number := v.numbers.find? fun n => !n.inRange

end Json.Value

namespace Literal

open Json.Value

/-! ### Encoding fails at the first number that is out of range -/

/-- What the encoder does by the first number out of range, if there is one. -/
def Encodes {α : Type} (outOfRange : Option Json.Number) (result : Except Cause α) : Prop :=
  match outOfRange with
  | some n => result = .error (.unsupportedValue n.text)
  | none => ∃ encoded, result = .ok encoded

/-- Two encodings in a row fail where the first of them fails. -/
theorem Encodes.bind {α β γ : Type} {numbers more : List Json.Number} {f : α → β → γ}
    {first : Except Cause α} {second : Except Cause β}
    (hfirst : Encodes (numbers.find? fun n => !n.inRange) first)
    (hsecond : Encodes (more.find? fun n => !n.inRange) second) :
    Encodes ((numbers ++ more).find? fun n => !n.inRange)
      (first >>= fun a => second >>= fun b => pure (f a b)) := by
  rw [List.find?_append]
  cases h : numbers.find? fun n => !n.inRange with
  | some n =>
    rw [h] at hfirst
    have hfailed : first = .error (.unsupportedValue n.text) := hfirst
    rw [hfailed]
    rfl
  | none =>
    rw [h] at hfirst
    obtain ⟨a, ha⟩ := hfirst
    rw [ha, Option.none_or]
    cases h' : more.find? fun n => !n.inRange with
    | some n =>
      rw [h'] at hsecond
      have hfailed : second = .error (.unsupportedValue n.text) := hsecond
      rw [hfailed]
      rfl
    | none =>
      rw [h'] at hsecond
      obtain ⟨b, hb⟩ := hsecond
      rw [hb]
      exact ⟨f a b, rfl⟩

theorem Encodes.map {α β : Type} {outOfRange : Option Json.Number} {result : Except Cause α}
    (f : α → β) (h : Encodes outOfRange result) :
    Encodes outOfRange (result >>= fun a => pure (f a)) := by
  cases outOfRange with
  | some n =>
    have hfailed : result = .error (.unsupportedValue n.text) := h
    rw [hfailed]
    rfl
  | none =>
    obtain ⟨a, ha⟩ := h
    rw [ha]
    exact ⟨f a, rfl⟩

mutual

/-- **Encoding fails exactly at the first number that is out of range.** -/
theorem ofValue_numbers : ∀ v : Json.Value, Encodes v.outOfRange? (ofValue v)
  | .null => ⟨leaf .nullKeyword, by rw [ofValue]⟩
  | .bool true => ⟨leaf .trueKeyword, by rw [ofValue]⟩
  | .bool false => ⟨leaf .falseKeyword, by rw [ofValue]⟩
  | .string text => ⟨string text, by rw [ofValue]⟩
  | .number n => by
    rw [ofValue, outOfRange?, numbers, List.find?_cons]
    cases n.inRange with
    | true => exact ⟨number n, rfl⟩
    | false => rfl
  | .array items => by
    rw [ofValue, outOfRange?, numbers]
    exact (ofItems_numbers items).map (Node.synthesize .arrayLiteralExpression)
  | .object members => by
    rw [ofValue, outOfRange?, numbers]
    exact (ofMembers_numbers members).map (Node.synthesize .objectLiteralExpression)

theorem ofItems_numbers : ∀ items : List Json.Value,
    Encodes ((numbersOfItems items).find? fun n => !n.inRange) (ofItems items)
  | [] => by
    rw [numbersOfItems, ofItems]
    exact ⟨[], rfl⟩
  | item :: items => by
    rw [numbersOfItems, ofItems]
    exact (ofValue_numbers item).bind (ofItems_numbers items)

theorem ofMembers_numbers : ∀ members : List (String × Json.Value),
    Encodes ((numbersOfMembers members).find? fun n => !n.inRange) (ofMembers members)
  | [] => by
    rw [numbersOfMembers, ofMembers]
    exact ⟨[], rfl⟩
  | (key, value) :: members => by
    rw [numbersOfMembers, ofMembers]
    exact (ofValue_numbers value).bind (ofMembers_numbers members)

end

theorem ofValue_eq_error_iff {v : Json.Value} {cause : Cause} :
    ofValue v = .error cause ↔
      ∃ n, v.outOfRange? = some n ∧ cause = .unsupportedValue n.text := by
  have hspec := ofValue_numbers v
  cases h : v.outOfRange? with
  | some n =>
    rw [h] at hspec
    have hfailed : ofValue v = .error (.unsupportedValue n.text) := hspec
    rw [hfailed]
    constructor
    · intro heq
      exact ⟨n, rfl, (Except.error.inj heq).symm⟩
    · rintro ⟨m, hm, rfl⟩
      rw [Option.some.inj hm]
  | none =>
    rw [h] at hspec
    obtain ⟨literal, hliteral⟩ := hspec
    rw [hliteral]
    constructor
    · intro heq
      cases heq
    · rintro ⟨m, hm, -⟩
      cases hm

end Literal

/-! ### What literals are made of -/

/-- The kinds of which literals are built. -/
def Kind.isLiteral : Kind → Bool
  | .stringLiteral _ | .numericLiteral _ | .prefixUnaryExpression _ | .trueKeyword
  | .falseKeyword | .nullKeyword | .arrayLiteralExpression | .objectLiteralExpression
  | .propertyAssignment => true
  | _ => false

/-- Whether a tree is built of the kinds of literals only. -/
def Node.IsLiteral (n : Node) : Prop := ∀ m ∈ n.subtrees, m.kind.isLiteral = true

namespace Literal

theorem isLiteral_synthesize {kind : Kind} {children : List Node}
    (hkind : kind.isLiteral = true) (hchildren : ∀ m ∈ subtreesAll children, m.kind.isLiteral = true) :
    (Node.synthesize kind children).IsLiteral := by
  intro m hm
  rw [Node.synthesize, Node.subtrees] at hm
  rcases List.mem_cons.mp hm with rfl | hm
  · exact hkind
  · exact hchildren m hm

theorem isLiteral_leaf {kind : Kind} (hkind : kind.isLiteral = true) : (leaf kind).IsLiteral := by
  apply isLiteral_synthesize hkind
  intro m hm
  rw [subtreesAll] at hm
  exact absurd hm List.not_mem_nil

theorem isLiteral_cons {n : Node} {nodes : List Node} (hn : n.IsLiteral)
    (hnodes : ∀ m ∈ subtreesAll nodes, m.kind.isLiteral = true) :
    ∀ m ∈ subtreesAll (n :: nodes), m.kind.isLiteral = true := by
  intro m hm
  rw [subtreesAll] at hm
  rcases List.mem_append.mp hm with hm | hm
  · exact hn m hm
  · exact hnodes m hm

theorem isLiteral_nil : ∀ m ∈ subtreesAll [], m.kind.isLiteral = true := by
  intro m hm
  rw [subtreesAll] at hm
  exact absurd hm List.not_mem_nil

theorem isLiteral_number (n : Json.Number) : (number n).IsLiteral := by
  have hdigits : (leaf (.numericLiteral n.magnitudeText)).IsLiteral := isLiteral_leaf rfl
  rw [number]
  cases n.negative with
  | true => exact isLiteral_synthesize rfl (isLiteral_cons hdigits isLiteral_nil)
  | false => exact hdigits

mutual

/-- **The literal of a value is built of the kinds of literals only.** -/
theorem isLiteral_ofValue :
    ∀ (v : Json.Value) (literal : Node), ofValue v = .ok literal → literal.IsLiteral
  | .null, literal, h => by
    rw [ofValue] at h
    cases h
    exact isLiteral_leaf rfl
  | .bool true, literal, h => by
    rw [ofValue] at h
    cases h
    exact isLiteral_leaf rfl
  | .bool false, literal, h => by
    rw [ofValue] at h
    cases h
    exact isLiteral_leaf rfl
  | .string text, literal, h => by
    rw [ofValue] at h
    cases h
    exact isLiteral_leaf rfl
  | .number n, literal, h => by
    rw [ofValue] at h
    split at h
    · cases h
      exact isLiteral_number n
    · cases h
  | .array items, literal, h => by
    rw [ofValue, Result.bind_eq_ok_iff] at h
    obtain ⟨elements, helements, hliteral⟩ := h
    cases hliteral
    exact isLiteral_synthesize rfl (isLiteral_ofItems items elements helements)
  | .object members, literal, h => by
    rw [ofValue, Result.bind_eq_ok_iff] at h
    obtain ⟨properties, hproperties, hliteral⟩ := h
    cases hliteral
    exact isLiteral_synthesize rfl (isLiteral_ofMembers members properties hproperties)

theorem isLiteral_ofItems : ∀ (items : List Json.Value) (elements : List Node),
    ofItems items = .ok elements → ∀ m ∈ subtreesAll elements, m.kind.isLiteral = true
  | [], elements, h => by
    rw [ofItems] at h
    cases h
    exact isLiteral_nil
  | item :: items, elements, h => by
    simp only [ofItems, Result.bind_eq_ok_iff] at h
    obtain ⟨element, helement, rest, hrest, helements⟩ := h
    cases helements
    exact isLiteral_cons (isLiteral_ofValue item element helement)
      (isLiteral_ofItems items rest hrest)

theorem isLiteral_ofMembers : ∀ (members : List (String × Json.Value)) (properties : List Node),
    ofMembers members = .ok properties → ∀ m ∈ subtreesAll properties, m.kind.isLiteral = true
  | [], properties, h => by
    rw [ofMembers] at h
    cases h
    exact isLiteral_nil
  | (key, value) :: members, properties, h => by
    simp only [ofMembers, Result.bind_eq_ok_iff] at h
    obtain ⟨initializer, hinitializer, rest, hrest, hproperties⟩ := h
    cases hproperties
    have hname : (string key).IsLiteral := isLiteral_leaf rfl
    have hvalue := isLiteral_ofValue value initializer hinitializer
    have hproperty : (property key initializer).IsLiteral :=
      isLiteral_synthesize rfl (isLiteral_cons hname (isLiteral_cons hvalue isLiteral_nil))
    exact isLiteral_cons hproperty (isLiteral_ofMembers members rest hrest)

end

end Literal

end Transclude

/-
  Transclude/Proofs/LiteralTree.lean
  ==================================
  **The trees that are literals of values.**

  `LiteralTree` says which trees these are, without a word about values: keywords,
  strings and numbers without children, a minus over a number, arrays of such trees,
  and objects that give such trees to distinct names.

  Every value in normal form whose numbers are finite has such a tree, and has it
  item by item and member by member.  No two values have the same one, because it is
  printed as a text that is read back as the value.  And each such tree is the literal
  of a value, which is found by induction on the tree.
-/
import Transclude.Proofs.Numerals

namespace Transclude.Literal

open Json

/-! ### Literal trees -/

/-- A text that is a number without a sign, in its settled spelling and with a finite double
    near it. -/
def PlainNumber (digits : String) : Prop :=
  ∃ n : Number, Numeral digits.toList n ∧ n.negative = false ∧ n.text = digits ∧ n.Finite

inductive LiteralTree : Node → Prop
  | null : LiteralTree ⟨.dummy, .nullKeyword, .dummy, []⟩
  | wordTrue : LiteralTree ⟨.dummy, .trueKeyword, .dummy, []⟩
  | wordFalse : LiteralTree ⟨.dummy, .falseKeyword, .dummy, []⟩
  | string (text : String) : LiteralTree ⟨.dummy, .stringLiteral text, .dummy, []⟩
  | number {digits : String} (plain : PlainNumber digits) :
      LiteralTree ⟨.dummy, .numericLiteral digits, .dummy, []⟩
  | negative {digits : String} (plain : PlainNumber digits) :
      LiteralTree ⟨.dummy, .prefixUnaryExpression .minus, .dummy,
        [⟨.dummy, .numericLiteral digits, .dummy, []⟩]⟩
  | array {elements : List Node} (helements : ∀ element ∈ elements, LiteralTree element) :
      LiteralTree ⟨.dummy, .arrayLiteralExpression, .dummy, elements⟩
  | object {entries : List (String × Node)} (hkeys : (entries.map Prod.fst).Nodup)
      (hentries : ∀ entry ∈ entries, LiteralTree entry.2) :
      LiteralTree ⟨.dummy, .objectLiteralExpression, .dummy,
        entries.map fun entry => ⟨.dummy, .propertyAssignment, .dummy,
          [⟨.dummy, .stringLiteral entry.1, .dummy, []⟩, entry.2]⟩⟩

/-! ### Lists that correspond -/

section

variable {α β : Type} {R : α → β → Prop}

theorem forall_right_of_forall₂ {as : List α} {bs : List β} {p : β → Prop}
    (h : List.Forall₂ R as bs) (hp : ∀ a ∈ as, ∀ b, R a b → p b) : ∀ b ∈ bs, p b := by
  induction h with
  | nil => exact fun b hb => absurd hb List.not_mem_nil
  | cons hhead _ ih =>
    rw [List.forall_mem_cons] at hp ⊢
    exact ⟨hp.1 _ hhead, ih hp.2⟩

theorem exists_forall₂_of_forall {bs : List β} (h : ∀ b ∈ bs, ∃ a, R a b) :
    ∃ as, List.Forall₂ R as bs := by
  induction bs with
  | nil => exact ⟨[], .nil⟩
  | cons b bs ih =>
    rw [List.forall_mem_cons] at h
    obtain ⟨a, ha⟩ := h.1
    obtain ⟨as, has⟩ := ih h.2
    exact ⟨a :: as, .cons ha has⟩

end

/-! ### Arrays and objects are encoded part by part -/

/-- Each tree is the literal of the value at the same place. -/
def EncodesAll (items : List Value) (elements : List Node) : Prop :=
  List.Forall₂ (fun item element => ofValue item = .ok element) items elements

/-- Each tree is the literal of the member at the same place, under the same name. -/
def EncodesMembers (members : Members) (entries : List (String × Node)) : Prop :=
  List.Forall₂ (fun member entry => entry.1 = member.1 ∧ ofValue member.2 = .ok entry.2)
    members entries

theorem ofItems_eq_ok_iff {items : List Value} {elements : List Node} :
    ofItems items = .ok elements ↔ EncodesAll items elements := by
  unfold EncodesAll
  induction items generalizing elements with
  | nil =>
    rw [ofItems, List.forall₂_nil_left_iff, Except.ok.injEq]
    exact eq_comm
  | cons item items ih =>
    simp only [ofItems, Result.bind_eq_ok_iff, List.forall₂_cons_left_iff, ih]
    constructor
    · rintro ⟨element, helement, rest, hrest, ⟨⟩⟩
      exact ⟨element, rest, helement, hrest, rfl⟩
    · rintro ⟨element, rest, helement, hrest, rfl⟩
      exact ⟨element, helement, rest, hrest, rfl⟩

theorem ofMembers_eq_ok_iff {members : Members} {properties : List Node} :
    ofMembers members = .ok properties ↔
      ∃ entries, EncodesMembers members entries ∧
        properties = entries.map fun entry => property entry.1 entry.2 := by
  unfold EncodesMembers
  induction members generalizing properties with
  | nil =>
    simp only [ofMembers, List.forall₂_nil_left_iff, Except.ok.injEq, exists_eq_left, List.map_nil]
    exact eq_comm
  | cons member members ih =>
    obtain ⟨key, value⟩ := member
    simp only [ofMembers, Result.bind_eq_ok_iff, List.forall₂_cons_left_iff, ih]
    constructor
    · rintro ⟨initializer, hinitializer, rest, ⟨entries, hentries, rfl⟩, ⟨⟩⟩
      exact ⟨_, ⟨(key, initializer), entries, ⟨rfl, hinitializer⟩, hentries, rfl⟩, rfl⟩
    · rintro ⟨_, ⟨⟨key', initializer⟩, entries, ⟨rfl, hinitializer⟩, hentries, rfl⟩, rfl⟩
      exact ⟨initializer, hinitializer, _, ⟨entries, hentries, rfl⟩, rfl⟩

theorem ofValue_array_eq_ok_iff {items : List Value} {tree : Node} :
    ofValue (.array items) = .ok tree ↔
      ∃ elements, EncodesAll items elements ∧
        tree = ⟨.dummy, .arrayLiteralExpression, .dummy, elements⟩ := by
  simp only [ofValue, Result.bind_eq_ok_iff, ofItems_eq_ok_iff]
  constructor
  · rintro ⟨elements, helements, ⟨⟩⟩
    exact ⟨elements, helements, rfl⟩
  · rintro ⟨elements, helements, rfl⟩
    exact ⟨elements, helements, rfl⟩

theorem ofValue_object_eq_ok_iff {members : Members} {tree : Node} :
    ofValue (.object members) = .ok tree ↔
      ∃ entries, EncodesMembers members entries ∧
        tree = ⟨.dummy, .objectLiteralExpression, .dummy,
          entries.map fun entry => ⟨.dummy, .propertyAssignment, .dummy,
            [⟨.dummy, .stringLiteral entry.1, .dummy, []⟩, entry.2]⟩⟩ := by
  simp only [ofValue, Result.bind_eq_ok_iff, ofMembers_eq_ok_iff]
  constructor
  · rintro ⟨_, ⟨entries, hentries, rfl⟩, ⟨⟩⟩
    exact ⟨entries, hentries, rfl⟩
  · rintro ⟨entries, hentries, rfl⟩
    exact ⟨_, ⟨entries, hentries, rfl⟩, rfl⟩

theorem EncodesMembers.keys {members : Members} {entries : List (String × Node)}
    (h : EncodesMembers members entries) : entries.map Prod.fst = members.map Prod.fst := by
  induction h with
  | nil => rfl
  | cons hhead _ ih => rw [List.map_cons, List.map_cons, hhead.1, ih]

/-! ### Literals of values are literal trees -/

theorem plainNumber_magnitudeText {n : Number} (hn : n.Normal) (hfinite : n.Finite) :
    PlainNumber n.magnitudeText := by
  -- the same number without its sign
  have hplain : Number.Normal { n with negative := false } := ⟨hn.whole, hn.fraction, hn.exponent⟩
  have hnumeral := numeral_text hplain
  exact ⟨_, hnumeral, rfl, rfl, (Number.finite_of_magnitude false).mpr hfinite⟩

theorem literalTree_number {n : Number} (hn : n.Normal) (hfinite : n.Finite) :
    LiteralTree (number n) := by
  have hplain := plainNumber_magnitudeText hn hfinite
  rw [number]
  cases n.negative with
  | true => exact .negative hplain
  | false => exact .number hplain

theorem literalTree_ofValue {v : Value} (hv : v.Normal) :
    ∀ tree, ofValue v = .ok tree → LiteralTree tree := by
  induction hv with
  | null =>
    intro tree h
    rw [ofValue] at h
    cases h
    exact .null
  | bool value =>
    intro tree h
    cases value <;> rw [ofValue] at h <;> cases h
    · exact .wordFalse
    · exact .wordTrue
  | @number n hn =>
    intro tree h
    by_cases hfinite : n.Finite
    · rw [(ofValue_number hn).1 hfinite] at h
      cases h
      exact literalTree_number hn hfinite
    · rw [(ofValue_number hn).2 hfinite] at h
      cases h
  | string text =>
    intro tree h
    rw [ofValue] at h
    cases h
    exact .string text
  | @array items _ ih =>
    intro tree h
    obtain ⟨elements, helements, rfl⟩ := ofValue_array_eq_ok_iff.mp h
    exact .array (forall_right_of_forall₂ helements ih)
  | @object members hkeys _ ih =>
    intro tree h
    obtain ⟨entries, hentries, rfl⟩ := ofValue_object_eq_ok_iff.mp h
    apply LiteralTree.object
    · rw [hentries.keys]
      exact hkeys
    · refine forall_right_of_forall₂ hentries ?_
      rintro member hmember entry ⟨-, hencoded⟩
      exact ih member hmember entry.2 hencoded

/-! ### Literal trees are literals of values -/

theorem exists_number {digits : String} (h : PlainNumber digits) (negative : Bool) :
    ∃ n : Number, n.Normal ∧ n.Finite ∧ n.negative = negative ∧ n.magnitudeText = digits := by
  obtain ⟨n, hnumeral, hsign, rfl, hfinite⟩ := h
  have hn := hnumeral.normal
  refine ⟨{ n with negative := negative }, ⟨hn.whole, hn.fraction, hn.exponent⟩,
    (Number.finite_of_magnitude negative).mpr hfinite, rfl, ?_⟩
  rw [Number.text, Number.chars, hsign, if_neg Bool.false_ne_true]
  rfl

theorem exists_value {tree : Node} (h : LiteralTree tree) :
    ∃ v : Value, v.Normal ∧ ofValue v = .ok tree := by
  induction h with
  | null => exact ⟨.null, .null, by rw [ofValue]; rfl⟩
  | wordTrue => exact ⟨.bool true, .bool true, by rw [ofValue]; rfl⟩
  | wordFalse => exact ⟨.bool false, .bool false, by rw [ofValue]; rfl⟩
  | string text => exact ⟨.string text, .string text, by rw [ofValue]; rfl⟩
  | number plain =>
    obtain ⟨n, hn, hfinite, hsign, rfl⟩ := exists_number plain false
    refine ⟨.number n, .number hn, ?_⟩
    rw [(ofValue_number hn).1 hfinite, Literal.number, hsign]
    rfl
  | negative plain =>
    obtain ⟨n, hn, hfinite, hsign, rfl⟩ := exists_number plain true
    refine ⟨.number n, .number hn, ?_⟩
    rw [(ofValue_number hn).1 hfinite, Literal.number, hsign]
    rfl
  | @array elements _ ih =>
    obtain ⟨items, hitems⟩ := exists_forall₂_of_forall ih
    refine ⟨.array items, .array ?_, ofValue_array_eq_ok_iff.mpr ⟨elements, ?_, rfl⟩⟩
    · exact forall_right_of_forall₂ hitems.flip fun _ _ _ hitem => hitem.1
    · exact hitems.imp fun _ _ hitem => hitem.2
  | @object entries hkeys _ ih =>
    have hmember : ∀ entry ∈ entries, ∃ member : String × Value,
        member.2.Normal ∧ entry.1 = member.1 ∧ ofValue member.2 = .ok entry.2 := by
      intro entry hentry
      obtain ⟨value, hvalue, hencoded⟩ := ih entry hentry
      exact ⟨(entry.1, value), hvalue, rfl, hencoded⟩
    obtain ⟨members, hmembers⟩ := exists_forall₂_of_forall hmember
    have hentries : EncodesMembers members entries := hmembers.imp fun _ _ hpair => hpair.2
    refine ⟨.object members, .object ?_ ?_, ofValue_object_eq_ok_iff.mpr ⟨entries, hentries, rfl⟩⟩
    · rw [← hentries.keys]
      exact hkeys
    · exact forall_right_of_forall₂ hmembers.flip fun _ _ _ hpair => hpair.1

/-- Values with the same literal are equal: both are what its text denotes. -/
theorem ofValue_injective {v w : Value} (hv : v.Normal) (hw : w.Normal) {tree : Node}
    (hvtree : ofValue v = .ok tree) (hwtree : ofValue w = .ok tree) : v = w := by
  have htext : v.text = w.text := by
    rw [Value.text, Value.text, ← print_ofValue v tree hvtree, ← print_ofValue w tree hwtree]
  have hread := decode_text hv
  rw [htext, decode_text hw] at hread
  exact (Except.ok.inj hread).symm

/-! ### Values without a literal -/

theorem numbersOfItems_eq (items : List Value) :
    Value.numbersOfItems items = items.flatMap Value.numbers := by
  induction items with
  | nil => rw [Value.numbersOfItems, List.flatMap_nil]
  | cons item items ih => rw [Value.numbersOfItems, ih, List.flatMap_cons]

theorem numbersOfMembers_eq (members : Members) :
    Value.numbersOfMembers members = members.flatMap fun member => member.2.numbers := by
  induction members with
  | nil => rw [Value.numbersOfMembers, List.flatMap_nil]
  | cons member members ih => rw [Value.numbersOfMembers, ih, List.flatMap_cons]

/-- The numbers of a value in normal form are in normal form. -/
theorem normal_numbers {v : Value} (hv : v.Normal) : ∀ n ∈ v.numbers, n.Normal := by
  induction hv with
  | null | bool | string => simp [Value.numbers]
  | number hn => simpa [Value.numbers] using hn
  | array _ ih =>
    intro n hn
    rw [Value.numbers, numbersOfItems_eq] at hn
    obtain ⟨item, hitem, hn⟩ := List.mem_flatMap.mp hn
    exact ih item hitem n hn
  | object _ _ ih =>
    intro n hn
    rw [Value.numbers, numbersOfMembers_eq] at hn
    obtain ⟨member, hmember, hn⟩ := List.mem_flatMap.mp hn
    exact ih member hmember n hn

/-- Encoding fails exactly at the first number that has no finite double near it. -/
theorem ofValue_eq_error_iff_firstInfinite {v : Value} (hv : v.Normal) {cause : Cause} :
    ofValue v = .error cause ↔
      ∃ n, Number.FirstInfinite v.numbers n ∧ cause = .unsupportedValue n.text := by
  rw [ofValue_eq_error_iff]
  simp only [Value.outOfRange?, Number.find?_eq_some_iff_firstInfinite (normal_numbers hv)]

theorem exists_error_iff {v : Value} (hv : v.Normal) :
    (∃ cause, ofValue v = .error cause) ↔ ∃ n ∈ v.numbers, ¬ n.Finite := by
  rw [← Number.exists_firstInfinite_iff (normal_numbers hv)]
  constructor
  · rintro ⟨cause, hcause⟩
    obtain ⟨n, hn, -⟩ := (ofValue_eq_error_iff_firstInfinite hv).mp hcause
    exact ⟨n, hn⟩
  · rintro ⟨n, hn⟩
    exact ⟨_, (ofValue_eq_error_iff_firstInfinite hv).mpr ⟨n, hn, rfl⟩⟩

theorem exists_literalTree {v : Value} (hv : v.Normal) (hfinite : ∀ n ∈ v.numbers, n.Finite) :
    ∃ tree, ofValue v = .ok tree ∧ LiteralTree tree := by
  cases hresult : ofValue v with
  | error cause =>
    obtain ⟨n, hn, hinfinite⟩ := (exists_error_iff hv).mp ⟨cause, hresult⟩
    exact absurd (hfinite n hn) hinfinite
  | ok tree => exact ⟨tree, rfl, literalTree_ofValue hv tree hresult⟩

/-- **Literals and values with finite numbers correspond one to one.** -/
theorem ofValue_bijective :
    (∀ v : Value, v.Normal →
      ((∃ cause, ofValue v = .error cause) ↔ ∃ n ∈ v.numbers, ¬ n.Finite) ∧
      (∀ cause, ofValue v = .error cause →
        ∃ n, Number.FirstInfinite v.numbers n ∧ cause = .unsupportedValue n.text) ∧
      ((∀ n ∈ v.numbers, n.Finite) → ∃ tree, ofValue v = .ok tree ∧ LiteralTree tree)) ∧
    (∀ v w : Value, v.Normal → w.Normal →
      ∀ tree, ofValue v = .ok tree → ofValue w = .ok tree → v = w) ∧
    (∀ tree, LiteralTree tree → ∃ v : Value, v.Normal ∧ ofValue v = .ok tree) ∧
    (∀ items tree, ofValue (.array items) = .ok tree ↔
      ∃ elements, EncodesAll items elements ∧
        tree = ⟨.dummy, .arrayLiteralExpression, .dummy, elements⟩) ∧
    (∀ members tree, ofValue (.object members) = .ok tree ↔
      ∃ entries, EncodesMembers members entries ∧
        tree = ⟨.dummy, .objectLiteralExpression, .dummy,
          entries.map fun entry => ⟨.dummy, .propertyAssignment, .dummy,
            [⟨.dummy, .stringLiteral entry.1, .dummy, []⟩, entry.2]⟩⟩) := by
  refine ⟨?_, ?_, fun _ => exists_value, fun _ _ => ofValue_array_eq_ok_iff,
    fun _ _ => ofValue_object_eq_ok_iff⟩
  · intro v hv
    exact ⟨exists_error_iff hv, fun _ => (ofValue_eq_error_iff_firstInfinite hv).mp,
      exists_literalTree hv⟩
  · intro v w hv hw tree
    exact ofValue_injective hv hw

end Transclude.Literal

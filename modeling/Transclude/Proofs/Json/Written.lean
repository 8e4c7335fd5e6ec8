/-
  Transclude/Proofs/Json/Written.lean
  ===================================
  **Written values are read back.**

  A value has one written form: items and members are set apart by a comma and a
  space, and the braces of an object are kept apart from its members.  The written
  form of a value in normal form is a spelling of that value, and so it is read as
  that value (`decode_text`).
-/
import Transclude.Proofs.Json.Acceptance
import Transclude.Proofs.Text.Quoted

namespace Transclude.Json

/-- Texts with a comma and a space between any two. -/
def separated (texts : List (List Char)) : List Char := [',', ' '].intercalate texts

theorem separated_singleton (text : List Char) : separated [text] = text :=
  List.intercalate_singleton

theorem separated_cons_cons (text next : List Char) (texts : List (List Char)) :
    separated (text :: next :: texts) = text ++ ',' :: ' ' :: separated (next :: texts) := by
  rw [separated, List.intercalate_cons_cons, List.append_assoc]
  rfl

mutual

/-- The written form of a value. -/
def Value.chars : Value → List Char
  | .null => ['n', 'u', 'l', 'l']
  | .bool true => ['t', 'r', 'u', 'e']
  | .bool false => ['f', 'a', 'l', 's', 'e']
  | .number n => n.chars
  | .string text => Quoted.chars text.toList
  | .array items => '[' :: (separated (charsOfItems items) ++ [']'])
  | .object [] => ['\x7b', '\x7d']
  | .object (entry :: members) =>
    '\x7b' :: ' ' :: (separated (charsOfMembers (entry :: members)) ++ [' ', '\x7d'])

def charsOfItems : List Value → List (List Char)
  | [] => []
  | item :: items => item.chars :: charsOfItems items

def charsOfMembers : List (String × Value) → List (List Char)
  | [] => []
  | (key, value) :: members =>
    (Quoted.chars key.toList ++ ':' :: ' ' :: value.chars) :: charsOfMembers members

end

theorem separated_items (item next : Value) (items : List Value) :
    separated (charsOfItems (item :: next :: items)) =
      item.chars ++ ',' :: ' ' :: separated (charsOfItems (next :: items)) := by
  simp only [charsOfItems, separated_cons_cons]

theorem separated_members (key : String) (value : Value) (next : String × Value)
    (members : Members) :
    separated (charsOfMembers ((key, value) :: next :: members)) =
      (Quoted.chars key.toList ++ ':' :: ' ' :: value.chars) ++
        ',' :: ' ' :: separated (charsOfMembers (next :: members)) := by
  simp only [charsOfMembers, separated_cons_cons]

/-! ### Written values are spellings -/

theorem Number.Normal.numeral {n : Number} (hn : n.Normal) : Numeral n.chars n := by
  have hfraction : FractionPart n.fractionChars n.fraction := by
    unfold Number.fractionChars
    cases hf : n.fraction with
    | none => exact .absent
    | some digits => exact .point (hn.fraction digits hf)
  have hexponent : ExponentPart n.exponentChars n.exponent n.exponentChars := by
    unfold Number.exponentChars
    cases he : n.exponent with
    | none => exact .absent
    | some e =>
      obtain ⟨negative, digits⟩ := e
      cases negative with
      | true => exact .minus (.inl rfl) (hn.exponent _ he)
      | false => exact .plus (.inl rfl) (hn.exponent _ he)
  have hmagnitude := n.magnitudeChars_eq
  rw [List.append_assoc] at hmagnitude
  cases hsign : n.negative with
  | true =>
    have hchars : n.chars = ['-'] ++ (n.whole ++ (n.fractionChars ++ n.exponentChars)) := by
      rw [Number.chars, if_pos hsign, hmagnitude]
      rfl
    rw [hchars]
    exact .spelled (hsign ▸ .minus) hn.whole rfl hfraction hexponent hchars
  | false =>
    have hchars : n.chars = [] ++ (n.whole ++ (n.fractionChars ++ n.exponentChars)) := by
      rw [Number.chars, hsign, if_neg Bool.false_ne_true, hmagnitude]
      rfl
    rw [hchars]
    exact .spelled (hsign ▸ .absent) hn.whole rfl hfraction hexponent hchars

theorem space_nil : Space [] := by simp [Space]

theorem space_blank : Space [' '] := by simp [Space]

theorem denotes_string (text : String) : Denotes (Quoted.chars text.toList) (.string text) := by
  have hstring := Denotes.string (characters_quoted text.toList)
  rwa [String.ofList_toList] at hstring

theorem denotes_entry (key : String) {value : Value} (h : Denotes value.chars value) :
    DenotesEntry (Quoted.chars key.toList ++ ':' :: ' ' :: value.chars) (key, value) := by
  have hentry := DenotesEntry.entry (characters_quoted key.toList) space_nil space_blank h
  rw [String.ofList_toList] at hentry
  simpa [Quoted.chars] using hentry

theorem denotesItems_chars {items : List Value} (hne : items ≠ [])
    (h : ∀ item ∈ items, Denotes item.chars item) :
    DenotesItems (separated (charsOfItems items)) items := by
  induction items with
  | nil => exact absurd rfl hne
  | cons item items ih =>
    rw [List.forall_mem_cons] at h
    cases items with
    | nil =>
      rw [charsOfItems, charsOfItems, separated_singleton]
      exact .one h.1
    | cons next items =>
      rw [separated_items]
      exact .more h.1 space_nil space_blank (ih (List.cons_ne_nil _ _) h.2)

theorem denotesEntries_chars {members : Members} (hne : members ≠ [])
    (h : ∀ entry ∈ members, Denotes entry.2.chars entry.2) :
    DenotesEntries (separated (charsOfMembers members)) members := by
  induction members with
  | nil => exact absurd rfl hne
  | cons entry members ih =>
    obtain ⟨key, value⟩ := entry
    rw [List.forall_mem_cons] at h
    have hentry := denotes_entry key h.1
    cases members with
    | nil =>
      rw [charsOfMembers, charsOfMembers, separated_singleton]
      exact .one hentry
    | cons next members =>
      rw [separated_members]
      exact .more hentry space_nil space_blank (ih (List.cons_ne_nil _ _) h.2)

/-- **The written form of a value in normal form denotes that value.** -/
theorem Value.Normal.denotes {v : Value} (hv : v.Normal) : Denotes v.chars v := by
  induction hv with
  | null =>
    rw [chars]
    exact .null
  | bool value =>
    cases value <;> rw [chars]
    · exact .wordFalse
    · exact .wordTrue
  | number hn =>
    rw [chars]
    exact .number hn.numeral
  | string text =>
    rw [chars]
    exact denotes_string text
  | @array items _ ih =>
    rw [chars]
    cases items with
    | nil => exact .emptyArray space_nil
    | cons item items =>
      exact .array space_nil (denotesItems_chars (List.cons_ne_nil _ _) ih) space_nil
  | @object members hkeys _ ih =>
    cases members with
    | nil =>
      rw [chars]
      exact .emptyObject space_nil
    | cons entry members =>
      rw [chars]
      -- no key stands twice, so that the members are what they settle to
      have hsettled := settled_ofList (entry :: members)
      rw [Members.ofList_of_nodup hkeys] at hsettled
      exact .object space_blank (denotesEntries_chars (List.cons_ne_nil _ _) ih) space_blank
        hsettled

def Value.text (v : Value) : String := String.ofList v.chars

/-- **What is written is read back.** -/
theorem decode_text {v : Value} (hn : v.Normal) : decode v.text = .ok v := by
  apply decode_of_document
  rw [Value.text, String.toList_ofList]
  exact ⟨[], v.chars, [], by simp, space_nil, hn.denotes, space_nil⟩

end Transclude.Json

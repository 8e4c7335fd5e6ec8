/-
  Transclude/Proofs/RoundTrip.lean
  ================================
  **The text of a literal is a document that denotes the same value.**

  Three pieces have to agree for this: the tree that the encoder builds for a value,
  the separators and escapes that the printer puts around its parts, and what the
  reader makes of them.  The first two meet in the written form of a value
  (`print_ofValue`), the last two in `Json.decode_text`.
-/
import Transclude.Proofs.Json.Written
import Transclude.Literal
import Transclude.Tree.Printer

namespace Transclude.Literal

open Json

/-! ### Literals as text -/

theorem print_synthesize (kind : Kind) (children : List Node) :
    (Node.synthesize kind children).print = Printer.compose kind children (printAll children) := by
  rw [Node.synthesize, Node.print]

theorem toList_commaSeparated (texts : List String) :
    (Printer.commaSeparated texts).toList = separated (texts.map String.toList) := by
  rw [Printer.commaSeparated, String.toList_intercalate, separated]
  rfl

theorem toList_braced {texts : List String} (h : texts ≠ []) :
    (Printer.braced texts).toList =
      '\x7b' :: ' ' :: (separated (texts.map String.toList) ++ [' ', '\x7d']) := by
  cases texts with
  | nil => exact absurd rfl h
  | cons text texts =>
    rw [Printer.braced, List.isEmpty_cons, if_neg Bool.false_ne_true, String.toList_append,
      String.toList_append, toList_commaSeparated]
    rfl

theorem print_string (text : String) : (string text).print.toList = Quoted.chars text.toList := by
  rw [string, leaf, print_synthesize, Printer.compose, quote, String.toList_ofList]

theorem print_number (n : Number) : (number n).print.toList = n.chars := by
  have hdigits : (leaf (.numericLiteral n.magnitudeText)).print = n.magnitudeText := by
    rw [leaf, print_synthesize, Printer.compose]
  rw [number, Number.chars]
  cases n.negative with
  | true =>
    rw [if_pos rfl, if_pos rfl, print_synthesize, printAll, printAll, hdigits, Printer.compose,
      String.toList_append, String.join_cons, String.join_nil, String.append_empty,
      Number.magnitudeText, String.toList_ofList]
    rfl
  | false =>
    rw [if_neg Bool.false_ne_true, if_neg Bool.false_ne_true, hdigits, Number.magnitudeText,
      String.toList_ofList]

theorem print_property (key : String) (value : Node) :
    (property key value).print.toList =
      Quoted.chars key.toList ++ ':' :: ' ' :: value.print.toList := by
  rw [property, print_synthesize, printAll, printAll, printAll, Printer.compose,
    String.intercalate_cons_cons, String.intercalate_singleton, String.toList_append,
    String.toList_append, print_string, List.append_assoc]
  rfl

mutual

/-- **The literal of a value is printed as the written form of the value.** -/
theorem print_ofValue :
    ∀ (v : Value) (literal : Node), ofValue v = .ok literal → literal.print.toList = v.chars
  | .null, literal, h => by
    rw [ofValue] at h
    cases h
    rw [Value.chars]
    rfl
  | .bool true, literal, h => by
    rw [ofValue] at h
    cases h
    rw [Value.chars]
    rfl
  | .bool false, literal, h => by
    rw [ofValue] at h
    cases h
    rw [Value.chars]
    rfl
  | .string text, literal, h => by
    rw [ofValue] at h
    cases h
    rw [Value.chars]
    exact print_string text
  | .number n, literal, h => by
    rw [ofValue] at h
    split at h
    · cases h
      rw [Value.chars]
      exact print_number n
    · cases h
  | .array items, literal, h => by
    rw [ofValue, Result.bind_eq_ok_iff] at h
    obtain ⟨elements, helements, hliteral⟩ := h
    cases hliteral
    rw [Value.chars, print_synthesize, Printer.compose, String.toList_append,
      String.toList_append, toList_commaSeparated, print_ofItems items elements helements]
    rfl
  | .object [], literal, h => by
    rw [ofValue, ofMembers] at h
    cases h
    rw [Value.chars]
    rfl
  | .object (entry :: members), literal, h => by
    rw [ofValue, Result.bind_eq_ok_iff] at h
    obtain ⟨properties, hproperties, hliteral⟩ := h
    cases hliteral
    have htexts := print_ofMembers (entry :: members) properties hproperties
    have hne : printAll properties ≠ [] := by
      intro hnil
      rw [hnil, charsOfMembers] at htexts
      cases htexts
    rw [Value.chars, print_synthesize, Printer.compose, toList_braced hne, htexts]

theorem print_ofItems : ∀ (items : List Value) (elements : List Node),
    ofItems items = .ok elements → (printAll elements).map String.toList = charsOfItems items
  | [], elements, h => by
    rw [ofItems] at h
    cases h
    rw [charsOfItems, printAll, List.map_nil]
  | item :: items, elements, h => by
    simp only [ofItems, Result.bind_eq_ok_iff] at h
    obtain ⟨element, helement, rest, hrest, helements⟩ := h
    cases helements
    rw [charsOfItems, printAll, List.map_cons, print_ofValue item element helement,
      print_ofItems items rest hrest]

theorem print_ofMembers : ∀ (members : Members) (properties : List Node),
    ofMembers members = .ok properties →
    (printAll properties).map String.toList = charsOfMembers members
  | [], properties, h => by
    rw [ofMembers] at h
    cases h
    rw [charsOfMembers, printAll, List.map_nil]
  | (key, value) :: members, properties, h => by
    simp only [ofMembers, Result.bind_eq_ok_iff] at h
    obtain ⟨initializer, hinitializer, rest, hrest, hproperties⟩ := h
    cases hproperties
    rw [charsOfMembers, printAll, List.map_cons, print_property,
      print_ofValue value initializer hinitializer, print_ofMembers members rest hrest]

end

/-- **The text of a literal is read as the value that the literal was made from**,
    number for number, and with the keys of every object in the same order. -/
theorem decode_print {text : String} {v : Value} {literal : Node} (hdecode : decode text = .ok v)
    (hliteral : ofValue v = .ok literal) : decode literal.print = .ok v := by
  have hprint : literal.print = v.text := by
    rw [Value.text, ← print_ofValue v literal hliteral, String.ofList_toList]
  rw [hprint]
  exact decode_text (normal_decode hdecode)

namespace Small

/-- A repeated key, space in odd places, an exponent without a sign, an empty object. -/
def text : String := "\x7b\"k\":1,\"k\" : [-1.50E3 ,\x7b \x7d]\x7d"

def number : Number := ⟨true, ['1'], some ['5', '0'], some ⟨false, ['3']⟩⟩

def value : Value := .object [("k", .array [.number number, .object []])]

def literal : Node :=
  .synthesize .objectLiteralExpression
    [property "k" (.synthesize .arrayLiteralExpression
      [Literal.number number, .synthesize .objectLiteralExpression []])]

theorem toList_text : text.toList =
    ['\x7b', '"', 'k', '"', ':', '1', ',', '"', 'k', '"', ' ', ':', ' ', '[', '-', '1', '.', '5',
      '0', 'E', '3', ' ', ',', '\x7b', ' ', '\x7d', ']', '\x7d'] := rfl

theorem decode_text : decode text = .ok value := by
  rw [decode, toList_text, Result.mapError_eq_ok_iff]
  simp [readDocument, readValue, skipSpace, isSpace, readItems, readMembers, readString, andThen,
    readNumber, readWhole, readFraction, readExponent, readExponentDigits, Members.ofList,
    Members.insert, List.dropWhile, List.takeWhile, bind, Except.bind, pure, Except.pure,
    Except.map, value, number]

theorem ofValue_value : ofValue value = .ok literal := by
  have hrange : number.inRange = true := by decide
  simp [value, ofValue, ofMembers, ofItems, hrange, bind, Except.bind, pure, Except.pure, literal]

end Small

theorem decode_print_small :
    decode Small.text = .ok Small.value ∧ ofValue Small.value = .ok Small.literal ∧
      decode Small.literal.print = .ok Small.value :=
  ⟨Small.decode_text, Small.ofValue_value, decode_print Small.decode_text Small.ofValue_value⟩

end Transclude.Literal

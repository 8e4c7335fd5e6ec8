/-
  Transclude/Proofs/Json/Rules.lean
  =================================
  **The rules by which values are read.**

  One rule for each way in which the readers of values, items and members go on.  A
  rule takes what the parts are read as and says what the whole is read as, with one
  step more than the parts have.
-/
import Transclude.Json.Reader
import Transclude.Proofs.Result

namespace Transclude.Json

/-! ### Space -/

theorem skipSpace_cons {c : Char} (h : isSpace c = false) (rest : List Char) :
    skipSpace (c :: rest) = c :: rest := by
  apply List.dropWhile_cons_of_neg
  rw [h]
  decide

/-! ### Digits -/

theorem ne_of_isDigit {c d : Char} (hc : c.isDigit = true) (hd : d.isDigit = false) : c ≠ d := by
  rintro rfl
  rw [hc] at hd
  cases hd

theorem isSpace_of_isDigit {c : Char} (hc : c.isDigit = true) : isSpace c = false := by
  have hne : ∀ d : Char, d.isDigit = false → (c == d) = false :=
    fun d hd => beq_eq_false_iff_ne.mpr (ne_of_isDigit hc hd)
  simp only [isSpace, hne ' ' rfl, hne '\n' rfl, hne '\t' rfl, hne '\r' rfl, Bool.or_self]

/-! ### Values -/

section

variable {steps : Nat} {chars rest rest₁ rest₂ rest₃ : List Char}

theorem readWord_append {α : Type} (meaning : α) (expected rest : List Char) :
    readWord meaning expected (expected ++ rest) = .ok (meaning, rest) := by
  induction expected with
  | nil => rfl
  | cons e expected ih => rw [List.cons_append, readWord, if_pos rfl, ih]

theorem readValue_minus {n : Number} (hn : readNumber true chars = .ok (n, rest)) :
    readValue (steps + 1) ('-' :: chars) = .ok (.number n, rest) := by
  rw [readValue, skipSpace_cons rfl]
  simp only [hn]
  rfl

theorem readValue_digit {c : Char} (hc : c.isDigit = true) {n : Number}
    (hn : readNumber false (c :: chars) = .ok (n, rest)) :
    readValue (steps + 1) (c :: chars) = .ok (.number n, rest) := by
  rw [readValue, skipSpace_cons (isSpace_of_isDigit hc)]
  -- A digit is none of the characters by which the other values are told.
  split
  · next heq => cases heq
  · next heq => exact absurd (List.cons.inj heq).1 (ne_of_isDigit hc rfl)
  · next heq => exact absurd (List.cons.inj heq).1 (ne_of_isDigit hc rfl)
  · next heq => exact absurd (List.cons.inj heq).1 (ne_of_isDigit hc rfl)
  · next heq => exact absurd (List.cons.inj heq).1 (ne_of_isDigit hc rfl)
  · next heq => exact absurd (List.cons.inj heq).1 (ne_of_isDigit hc rfl)
  · next heq => exact absurd (List.cons.inj heq).1 (ne_of_isDigit hc rfl)
  · next heq => exact absurd (List.cons.inj heq).1 (ne_of_isDigit hc rfl)
  · next heq =>
    cases heq
    rw [if_pos hc, hn]
    rfl

theorem readValue_string {text : List Char} (htext : readString chars = .ok (text, rest)) :
    readValue (steps + 1) ('"' :: chars) = .ok (.string (String.ofList text), rest) := by
  rw [readValue, skipSpace_cons rfl]
  simp only [htext]
  rfl

theorem readValue_array_nil (hclose : skipSpace chars = ']' :: rest) :
    readValue (steps + 1) ('[' :: chars) = .ok (.array [], rest) := by
  rw [readValue, skipSpace_cons rfl]
  simp only [hclose]

theorem readValue_array {c : Char} {first : List Char} {items : List Value}
    (hopen : skipSpace chars = c :: first) (hc : c ≠ ']')
    (hitems : readItems steps (c :: first) = .ok (items, rest)) :
    readValue (steps + 1) ('[' :: chars) = .ok (.array items, rest) := by
  rw [readValue, skipSpace_cons rfl]
  simp only [hopen]
  split
  · next heq => cases heq
  · next heq => exact absurd (List.cons.inj heq).1 hc
  · rw [hitems]
    rfl

theorem readValue_object_nil (hclose : skipSpace chars = '\x7d' :: rest) :
    readValue (steps + 1) ('\x7b' :: chars) = .ok (.object [], rest) := by
  rw [readValue, skipSpace_cons rfl]
  simp only [hclose]

theorem readValue_object {key : List Char} {members : List (String × Value)}
    (hopen : skipSpace chars = '"' :: key)
    (hmembers : readMembers steps ('"' :: key) = .ok (members, rest)) :
    readValue (steps + 1) ('\x7b' :: chars) = .ok (.object (Members.ofList members), rest) := by
  rw [readValue, skipSpace_cons rfl]
  simp only [hopen]
  split
  · next heq => cases heq
  · next heq => cases heq
  · rw [hmembers]
    rfl

/-! ### Items -/

theorem readItems_last {item : Value} (hitem : readValue steps chars = .ok (item, rest₁))
    (hclose : skipSpace rest₁ = ']' :: rest) :
    readItems (steps + 1) chars = .ok ([item], rest) := by
  rw [readItems, hitem]
  simp only [bind, Except.bind, hclose]

theorem readItems_more {c : Char} {next : List Char} {item : Value} {items : List Value}
    (hitem : readValue steps chars = .ok (item, rest₁)) (hcomma : skipSpace rest₁ = ',' :: rest₂)
    (hnext : skipSpace rest₂ = c :: next) (hc : c ≠ ']')
    (hitems : readItems steps (c :: next) = .ok (items, rest)) :
    readItems (steps + 1) chars = .ok (item :: items, rest) := by
  rw [readItems, hitem]
  simp only [bind, Except.bind, hcomma, hnext]
  split
  · next heq => exact absurd (List.cons.inj heq).1 hc
  · rw [hitems]
    rfl

/-! ### Members -/

variable {key : List Char} {value : Value}

theorem readMembers_last (hkey : readString chars = .ok (key, rest₁))
    (hcolon : skipSpace rest₁ = ':' :: rest₂) (hvalue : readValue steps rest₂ = .ok (value, rest₃))
    (hclose : skipSpace rest₃ = '\x7d' :: rest) :
    readMembers (steps + 1) ('"' :: chars) = .ok ([(String.ofList key, value)], rest) := by
  rw [readMembers, hkey]
  simp only [bind, Except.bind, hcolon, hvalue, hclose]

theorem readMembers_more {rest₄ next : List Char} {members : List (String × Value)}
    (hkey : readString chars = .ok (key, rest₁)) (hcolon : skipSpace rest₁ = ':' :: rest₂)
    (hvalue : readValue steps rest₂ = .ok (value, rest₃))
    (hcomma : skipSpace rest₃ = ',' :: rest₄) (hnext : skipSpace rest₄ = '"' :: next)
    (hmembers : readMembers steps ('"' :: next) = .ok (members, rest)) :
    readMembers (steps + 1) ('"' :: chars) =
      .ok ((String.ofList key, value) :: members, rest) := by
  rw [readMembers, hkey]
  simp only [bind, Except.bind, hcolon, hvalue, hcomma, hnext]
  split
  · next heq => cases heq
  · next heq => cases heq
  · rw [hmembers]
    rfl

end

/-! ### Documents -/

theorem decode_eq_ok_iff {text : String} {v : Value} :
    decode text = .ok v ↔ ∃ rest, skipSpace rest = [] ∧
      readValue (2 * text.toList.length + 2) text.toList = .ok (v, rest) := by
  rw [decode, Result.mapError_eq_ok_iff, readDocument, Result.bind_eq_ok_iff]
  constructor
  · rintro ⟨⟨value, rest⟩, hread, h⟩
    simp only at h
    split at h
    · next hspace =>
      cases h
      exact ⟨rest, hspace, hread⟩
    · cases h
  · rintro ⟨rest, hspace, hread⟩
    refine ⟨(v, rest), hread, ?_⟩
    simp only [hspace]
    rfl

end Transclude.Json

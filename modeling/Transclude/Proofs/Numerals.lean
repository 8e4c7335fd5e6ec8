/-
  Transclude/Proofs/Numerals.lean
  ===============================
  **Numbers are written out digit for digit, or refused by their text.**

  The text of a number is the text it was read from, but for the mark of the
  exponent, which is `e` with an explicit sign (`settle`).  Its literal has this text,
  with the sign set apart as a minus, and is printed as this text; so it is read back
  as the same number and is worth the same.

  Whether there is a literal depends on the number as it is taken in for the
  conversion to a double.  That is the number itself unless it has tens of thousands
  of digits that make up for a huge exponent; `value_not_decisive` has two numbers of
  this kind, one on either side of the bound, that are both judged wrongly.
-/
import Transclude.Proofs.Json.Range
import Transclude.Proofs.Literal
import Transclude.Proofs.RoundTrip

namespace Transclude

namespace Json

/-! ### The spelling of exponents -/

/-- Spells the mark of an exponent as `e` with an explicit sign. -/
def settle : List Char → List Char
  | [] => []
  | c :: rest =>
    if c = 'e' ∨ c = 'E' then
      if rest.head? = some '+' ∨ rest.head? = some '-' then 'e' :: rest else 'e' :: '+' :: rest
    else c :: settle rest

theorem settle_append {front : List Char} (h : ∀ c ∈ front, c ≠ 'e' ∧ c ≠ 'E')
    (rest : List Char) : settle (front ++ rest) = front ++ settle rest := by
  induction front with
  | nil => rfl
  | cons c front ih =>
    rw [List.forall_mem_cons] at h
    rw [List.cons_append, settle, if_neg (not_or.mpr h.1), ih h.2, List.cons_append]

theorem IsDigits.noMark {digits : List Char} (h : IsDigits digits) :
    ∀ c ∈ digits, c ≠ 'e' ∧ c ≠ 'E' :=
  fun c hc => ⟨ne_of_isDigit (h.2 c hc) rfl, ne_of_isDigit (h.2 c hc) rfl⟩

theorem ExponentPart.settle {exponent settled : List Char} {e : Option Exponent}
    (h : ExponentPart exponent e settled) : Json.settle exponent = settled := by
  cases h with
  | absent => rfl
  | plain either any =>
    obtain ⟨c, rest, rfl⟩ := List.exists_cons_of_ne_nil any.1
    have hdigit := any.2 c List.mem_cons_self
    have hplus : c ≠ '+' := ne_of_isDigit hdigit rfl
    have hminus : c ≠ '-' := ne_of_isDigit hdigit rfl
    rw [Json.settle, if_pos either, if_neg (by simp [hplus, hminus])]
  | plus either _ => rw [Json.settle, if_pos either, if_pos (.inl rfl)]
  | minus either _ => rw [Json.settle, if_pos either, if_pos (.inr rfl)]

theorem SignPart.noMark {sign : List Char} {negative : Bool} (h : SignPart sign negative) :
    ∀ c ∈ sign, c ≠ 'e' ∧ c ≠ 'E' := by
  cases h <;> simp

theorem WholePart.noMark {whole : List Char} (h : WholePart whole) :
    ∀ c ∈ whole, c ≠ 'e' ∧ c ≠ 'E' := by
  rcases h with rfl | ⟨hdigits, -⟩
  · simp
  · exact hdigits.noMark

theorem FractionPart.noMark {fraction : List Char} {digits : Option (List Char)}
    (h : FractionPart fraction digits) : ∀ c ∈ fraction, c ≠ 'e' ∧ c ≠ 'E' := by
  cases h with
  | absent => simp
  | point any => exact List.forall_mem_cons.mpr ⟨by decide, any.noMark⟩

/-- The text of a number is its spelling with the exponent settled. -/
theorem Numeral.chars_eq {chars : List Char} {n : Number} (h : Numeral chars n) :
    n.chars = settle chars := by
  cases h with
  | spelled hsign hwhole _ hfraction hexponent text =>
    rw [text, settle_append hsign.noMark, settle_append hwhole.noMark,
      settle_append hfraction.noMark, hexponent.settle]

theorem Numeral.negative_iff {chars : List Char} {n : Number} (h : Numeral chars n) :
    n.negative = true ↔ chars.head? = some '-' := by
  obtain ⟨negative, digits, fraction?, exponent?⟩ := n
  cases h with
  | spelled hsign hwhole _ _ _ _ =>
    cases hsign with
    | minus => simp
    | absent =>
      obtain ⟨c, rest, rfl, hc⟩ := hwhole.head
      have hminus : c ≠ '-' := ne_of_isDigit hc rfl
      simp [hminus]

theorem decode_numeral {token : String} {n : Number} (h : Numeral token.toList n) :
    decode token = .ok (.number n) := by
  apply decode_of_document
  exact ⟨[], token.toList, [], by simp, space_nil, .number h, space_nil⟩

theorem numeral_text {n : Number} (hn : n.Normal) : Numeral n.text.toList n := by
  rw [Number.text, String.toList_ofList]
  exact hn.numeral

end Json

namespace Literal

open Json

/-! ### The literal of a number -/

/-- A numeric literal without a sign, under a minus for a text that has one. -/
def Signed (token : List Char) (literal : Node) : Prop :=
  ∃ digits : String, digits.toList.head?.any Char.isDigit = true ∧
    literal =
      if token.head? = some '-' then
        ⟨.dummy, .prefixUnaryExpression .minus, .dummy,
          [⟨.dummy, .numericLiteral digits, .dummy, []⟩]⟩
      else ⟨.dummy, .numericLiteral digits, .dummy, []⟩

theorem signed_number {token : List Char} {n : Number} (h : Numeral token n) :
    Signed token (number n) := by
  refine ⟨n.magnitudeText, ?_, ?_⟩
  · obtain ⟨c, rest, hwhole, hc⟩ := WholePart.head h.normal.whole
    rw [Number.magnitudeText, String.toList_ofList, Number.magnitudeChars_eq, hwhole]
    exact hc
  · rw [number]
    by_cases hsign : n.negative = true
    · rw [if_pos hsign, if_pos (h.negative_iff.mp hsign)]
      rfl
    · rw [if_neg hsign, if_neg (mt h.negative_iff.mpr hsign)]
      rfl

theorem ofValue_number {n : Number} (hn : n.Normal) :
    (n.Finite → ofValue (.number n) = .ok (number n)) ∧
      (¬ n.Finite → ofValue (.number n) = .error (.unsupportedValue n.text)) := by
  rw [← Number.inRange_iff hn, ofValue]
  constructor
  · intro hfinite
    rw [if_pos hfinite]
  · intro hinfinite
    rw [if_neg hinfinite]

/-- **A number is written out with the digits it has, or refused by its text.**  It is refused
    if what is taken in of it is not below the bound, and that is the number itself if its
    digits do not make up for its exponent. -/
theorem ofValue_numeral {token : String} {n : Number} (h : Numeral token.toList n) :
    decode token = .ok (.number n) ∧
    ((∃ literal, ofValue (.number n) = .ok literal) ↔ |n.taken| < 2 ^ 1024 - 2 ^ 970) ∧
    (n.Unbalanced →
      ((∃ literal, ofValue (.number n) = .ok literal) ↔ |n.value| < 2 ^ 1024 - 2 ^ 970)) ∧
    (∀ literal, ofValue (.number n) = .ok literal →
      Signed token.toList literal ∧ literal.print.toList = settle token.toList ∧
        Numeral literal.print.toList n) ∧
    ∀ cause, ofValue (.number n) = .error cause →
      cause = .unsupportedValue (String.ofList (settle token.toList)) := by
  have hn := h.normal
  have hsome : (∃ literal, ofValue (.number n) = .ok literal) ↔ n.Finite := by
    constructor
    · rintro ⟨literal, hliteral⟩
      by_contra hinfinite
      rw [(ofValue_number hn).2 hinfinite] at hliteral
      cases hliteral
    · intro hfinite
      exact ⟨number n, (ofValue_number hn).1 hfinite⟩
  refine ⟨decode_numeral h, hsome, ?_, ?_, ?_⟩
  · intro hunbalanced
    exact hsome.trans (Number.finite_iff_of_unbalanced hn hunbalanced)
  · intro literal hliteral
    have hfinite := hsome.mp ⟨literal, hliteral⟩
    rw [(ofValue_number hn).1 hfinite] at hliteral
    cases hliteral
    rw [print_number]
    exact ⟨signed_number h, h.chars_eq, hn.numeral⟩
  · intro cause hcause
    have hinfinite : ¬ n.Finite := by
      intro hfinite
      rw [(ofValue_number hn).1 hfinite] at hcause
      cases hcause
    rw [(ofValue_number hn).2 hinfinite] at hcause
    cases hcause
    rw [← h.chars_eq]
    rfl

namespace Zero

/-- A zero with a sign and with an exponent beyond all bounds. -/
def token : String := "-0E99999999999"

def number : Number :=
  ⟨true, ['0'], none, some ⟨false, ['9', '9', '9', '9', '9', '9', '9', '9', '9', '9', '9']⟩⟩

theorem numeral : Numeral token.toList number := by
  have hexponent : ExponentPart ('E' :: ['9', '9', '9', '9', '9', '9', '9', '9', '9', '9', '9'])
      number.exponent _ := .plain (.inr rfl) ⟨List.cons_ne_nil _ _, by simp⟩
  exact .spelled .minus (.inl rfl) rfl .absent hexponent rfl

theorem unbalanced : number.Unbalanced := by
  rintro e he -
  cases he
  decide

theorem value_eq : number.value = 0 := by
  have hdigits : number.significantDigits = 0 := by decide
  rw [Number.value, Number.times_eq_zero numeral.normal hdigits]

end Zero

theorem ofValue_numeral_zero :
    Numeral Zero.token.toList Zero.number ∧ decode Zero.token = .ok (.number Zero.number) ∧
      ∃ literal, ofValue (.number Zero.number) = .ok literal ∧
        Signed Zero.token.toList literal ∧ literal.print.toList = "-0e+99999999999".toList := by
  obtain ⟨hdecode, -, hrange, hliteral, -⟩ := ofValue_numeral Zero.numeral
  have hsmall : |Zero.number.value| < 2 ^ 1024 - 2 ^ 970 := by
    rw [Zero.value_eq, abs_zero]
    exact Number.bound_pos
  obtain ⟨literal, hok⟩ := (hrange Zero.unbalanced).mpr hsmall
  obtain ⟨hsigned, hprint, -⟩ := hliteral literal hok
  exact ⟨Zero.numeral, hdecode, literal, hok, hsigned, hprint⟩

/-! ### Numbers that are judged wrongly -/

namespace Balanced

/-- Six digits, of which the first five are taken in. -/
def exponent (negative : Bool) : Exponent := ⟨negative, ['6', '5', '5', '3', '6', '0']⟩

/-- Many ones, moved 655360 places to the right. -/
def small (ones : Nat) : Number := ⟨false, List.replicate ones '1', none, some (exponent true)⟩

/-- A one behind many zeros, moved 655360 places to the left. -/
def large (zeros : Nat) : Number :=
  ⟨false, ['0'], some (List.replicate zeros '0' ++ ['1']), some (exponent false)⟩

theorem isDigits_exponent (negative : Bool) : IsDigits (exponent negative).digits :=
  ⟨List.cons_ne_nil _ _, by simp [exponent]⟩

theorem normal_small {ones : Nat} (h : ones ≠ 0) : (small ones).Normal where
  whole := by
    refine .inr ⟨⟨by simp [small, h], ?_⟩, by simp [small, List.head?_replicate, h]⟩
    intro c hc
    rw [(List.mem_replicate.mp hc).2]
    rfl
  fraction := by
    intro digits h
    cases h
  exponent := by
    rintro e ⟨⟩
    exact isDigits_exponent true

theorem normal_large (zeros : Nat) : (large zeros).Normal where
  whole := .inl rfl
  fraction := by
    rintro digits ⟨⟩
    refine ⟨by simp, ?_⟩
    intro c hc
    rcases List.mem_append.mp hc with hc | hc
    · rw [(List.mem_replicate.mp hc).2]
      rfl
    · rw [List.mem_singleton.mp hc]
      rfl
  exponent := by
    rintro e ⟨⟩
    exact isDigits_exponent false

theorem significantDigits_small (ones : Nat) : (small ones).significantDigits = ones := by
  simp [small, Number.significantDigits, Number.fractionDigits]

theorem order_small (ones : Nat) (power : Int) : (small ones).order power = ones + power := by
  rw [Number.order, significantDigits_small]
  simp [small, Number.fractionDigits]

theorem significantDigits_large (zeros : Nat) : (large zeros).significantDigits = 1 := by
  simp [large, Number.significantDigits, Number.fractionDigits]

theorem order_large (zeros : Nat) (power : Int) : (large zeros).order power = power - zeros := by
  rw [Number.order, significantDigits_large]
  simp only [large, Number.fractionDigits, Option.getD_some, List.length_append,
    List.length_replicate, List.length_singleton]
  omega

/-- A tiny number is refused. -/
theorem small_refused {ones : Nat} (hmany : 65846 ≤ ones) (hfew : ones ≤ 655668) :
    |(small ones).value| < 2 ^ 1024 - 2 ^ 970 ∧ ¬ (small ones).Finite := by
  have hn := normal_small (by omega : ones ≠ 0)
  have hpower : (small ones).power = -655360 := rfl
  have htaken : (small ones).takenPower = -65536 := rfl
  constructor
  · apply Number.lt_bound_of_order_le hn
    rw [order_small, hpower]
    omega
  · apply not_lt_of_ge
    apply Number.bound_le_of_le_order hn
    · rw [significantDigits_small]
      omega
    · rw [order_small, htaken]
      omega

/-- A huge number passes. -/
theorem large_passed {zeros : Nat} (hmany : 65228 ≤ zeros) (hfew : zeros ≤ 655050) :
    2 ^ 1024 - 2 ^ 970 ≤ |(large zeros).value| ∧ (large zeros).Finite := by
  have hn := normal_large zeros
  have hpower : (large zeros).power = 655360 := rfl
  have htaken : (large zeros).takenPower = 65536 := rfl
  constructor
  · apply Number.bound_le_of_le_order hn
    · rw [significantDigits_large]
      exact Nat.one_ne_zero
    · rw [order_large, hpower]
      omega
  · apply Number.lt_bound_of_order_le hn
    rw [order_large, htaken]
    omega

end Balanced

/-- The value of a number does not always decide: 66000 ones are refused though an exponent
    makes them tiny, and a one behind 66000 zeros passes though an exponent makes it huge. -/
theorem value_not_decisive :
    (Numeral (Balanced.small 66000).text.toList (Balanced.small 66000) ∧
      decode (Balanced.small 66000).text = .ok (.number (Balanced.small 66000)) ∧
      |(Balanced.small 66000).value| < 2 ^ 1024 - 2 ^ 970 ∧
      ofValue (.number (Balanced.small 66000)) =
        .error (.unsupportedValue (Balanced.small 66000).text)) ∧
    (Numeral (Balanced.large 66000).text.toList (Balanced.large 66000) ∧
      decode (Balanced.large 66000).text = .ok (.number (Balanced.large 66000)) ∧
      2 ^ 1024 - 2 ^ 970 ≤ |(Balanced.large 66000).value| ∧
      ofValue (.number (Balanced.large 66000)) = .ok (number (Balanced.large 66000))) := by
  have hsmall := Balanced.normal_small (by decide : 66000 ≠ 0)
  have hlarge := Balanced.normal_large 66000
  obtain ⟨hvalue, hinfinite⟩ := @Balanced.small_refused 66000 (by omega) (by omega)
  obtain ⟨hvalue', hfinite⟩ := @Balanced.large_passed 66000 (by omega) (by omega)
  exact ⟨⟨numeral_text hsmall, decode_numeral (numeral_text hsmall), hvalue,
    (ofValue_number hsmall).2 hinfinite⟩, numeral_text hlarge, decode_numeral (numeral_text hlarge),
    hvalue', (ofValue_number hlarge).1 hfinite⟩

end Literal

end Transclude

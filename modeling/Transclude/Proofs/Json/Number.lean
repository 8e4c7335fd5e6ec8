/-
  Transclude/Proofs/Json/Number.lean
  ==================================
  **The parts of numbers.**

  A number is in normal form when it is digits without a leading zero, then perhaps
  a point with digits, then perhaps an exponent with digits.  Each part is read to
  its end, provided that what follows cannot be taken for more of it, and what is
  read is a part of this form.
-/
import Transclude.Json.Scalar
import Transclude.Proofs.Result

namespace Transclude.Json

/-- A row of at least one decimal digit. -/
def IsDigits (chars : List Char) : Prop := chars ≠ [] ∧ ∀ c ∈ chars, c.isDigit = true

/-- The form of the numbers that are read. -/
structure Number.Normal (n : Number) : Prop where
  /-- No leading zero, a zero alone apart. -/
  whole : n.whole = ['0'] ∨ IsDigits n.whole ∧ n.whole.head? ≠ some '0'
  fraction : ∀ digits, n.fraction = some digits → IsDigits digits
  exponent : ∀ e, n.exponent = some e → IsDigits e.digits

/-! ### What can follow -/

def NoDigit (rest : List Char) : Prop := ∀ c, rest.head? = some c → c.isDigit = false

/-- Nothing comes next that a number could go on with. -/
def Delimited (rest : List Char) : Prop :=
  ∀ c, rest.head? = some c → c.isDigit = false ∧ c ≠ '.' ∧ c ≠ 'e' ∧ c ≠ 'E'

theorem Delimited.noDigit {rest : List Char} (h : Delimited rest) : NoDigit rest :=
  fun c hc => (h c hc).1

theorem delimited_nil : Delimited [] := by
  intro c hc
  cases hc

theorem delimited_cons (c : Char) (h : c.isDigit = false ∧ c ≠ '.' ∧ c ≠ 'e' ∧ c ≠ 'E')
    (rest : List Char) : Delimited (c :: rest) := by
  intro c' hc'
  cases hc'
  exact h

theorem noDigit_cons {c : Char} (h : c.isDigit = false) (rest : List Char) :
    NoDigit (c :: rest) := by
  intro c' hc'
  cases hc'
  exact h

theorem takeWhile_digits {digits rest : List Char} (hdigits : ∀ c ∈ digits, c.isDigit = true)
    (hrest : NoDigit rest) : (digits ++ rest).takeWhile Char.isDigit = digits := by
  have hnone : rest.takeWhile Char.isDigit = [] := by
    cases rest with
    | nil => rfl
    | cons c rest =>
      apply List.takeWhile_cons_of_neg
      rw [hrest c rfl]
      decide
  rw [List.takeWhile_append_of_pos hdigits, hnone, List.append_nil]

theorem dropWhile_digits {digits rest : List Char} (hdigits : ∀ c ∈ digits, c.isDigit = true)
    (hrest : NoDigit rest) : (digits ++ rest).dropWhile Char.isDigit = rest := by
  rw [List.dropWhile_append_of_pos hdigits]
  cases rest with
  | nil => rfl
  | cons c rest =>
    apply List.dropWhile_cons_of_neg
    rw [hrest c rfl]
    decide

/-! ### Reading the parts of a number -/

theorem readWhole_append {whole rest : List Char}
    (hwhole : whole = ['0'] ∨ IsDigits whole ∧ whole.head? ≠ some '0') (hrest : NoDigit rest) :
    readWhole (whole ++ rest) = .ok (whole, rest) := by
  rcases hwhole with rfl | ⟨⟨hne, hdigits⟩, hzero⟩
  · have hnone : rest.head?.any Char.isDigit = false := by
      cases rest with
      | nil => rfl
      | cons c rest => exact hrest c rfl
    simp only [List.cons_append, List.nil_append, readWhole, if_true, hnone, Bool.false_eq_true,
      if_false]
  · cases whole with
    | nil => exact absurd rfl hne
    | cons c whole =>
      have hc : ¬ c = '0' := by
        intro h
        exact hzero (by rw [h]; rfl)
      have htail : ∀ d ∈ whole, d.isDigit = true :=
        fun d hd => hdigits d (List.mem_cons_of_mem _ hd)
      simp only [List.cons_append, readWhole, hc, if_false, hdigits c List.mem_cons_self, if_true,
        takeWhile_digits htail hrest, dropWhile_digits htail hrest]

theorem readFraction_append {digits rest : List Char} (hdigits : IsDigits digits)
    (hrest : NoDigit rest) :
    readFraction ('.' :: (digits ++ rest)) = .ok (some digits, rest) := by
  obtain ⟨hne, hall⟩ := hdigits
  rw [readFraction, takeWhile_digits hall hrest, dropWhile_digits hall hrest]
  cases digits with
  | nil => exact absurd rfl hne
  | cons c digits => rfl

theorem readFraction_none {rest : List Char} (h : rest.head? ≠ some '.') :
    readFraction rest = .ok (none, rest) := by
  unfold readFraction
  split
  · exact absurd rfl h
  · rfl

theorem readExponentDigits_append (negative : Bool) {digits rest : List Char}
    (hdigits : IsDigits digits) (hrest : NoDigit rest) :
    readExponentDigits negative (digits ++ rest) = .ok (some ⟨negative, digits⟩, rest) := by
  obtain ⟨hne, hall⟩ := hdigits
  rw [readExponentDigits, takeWhile_digits hall hrest, dropWhile_digits hall hrest]
  cases digits with
  | nil => exact absurd rfl hne
  | cons c digits => rfl

theorem readExponent_none {rest : List Char} (h : rest.head? ≠ some 'e' ∧ rest.head? ≠ some 'E') :
    readExponent rest = .ok (none, rest) := by
  cases rest with
  | nil => rfl
  | cons c rest =>
    have hc : ¬ (c = 'e' ∨ c = 'E') := by
      rintro (rfl | rfl)
      · exact h.1 rfl
      · exact h.2 rfl
    unfold readExponent
    simp only [hc, if_false]

/-! ### The text of a number -/

def Number.exponentChars (n : Number) : List Char :=
  match n.exponent with
  | some e => e.chars
  | none => []

def Number.fractionChars (n : Number) : List Char :=
  match n.fraction with
  | some digits => '.' :: digits
  | none => []

theorem Number.magnitudeChars_eq (n : Number) :
    n.magnitudeChars = n.whole ++ n.fractionChars ++ n.exponentChars := rfl

/-! ### What is read -/

theorem isDigits_takeWhile {chars : List Char} (h : chars.takeWhile Char.isDigit ≠ []) :
    IsDigits (chars.takeWhile Char.isDigit) :=
  ⟨h, fun _ hc => List.all_eq_true.mp List.all_takeWhile _ hc⟩

theorem whole_readWhole {chars whole rest : List Char} (h : readWhole chars = .ok (whole, rest)) :
    whole = ['0'] ∨ IsDigits whole ∧ whole.head? ≠ some '0' := by
  cases chars with
  | nil => cases h
  | cons c chars =>
    rw [readWhole] at h
    split at h
    · next hzero =>
      split at h
      · cases h
      · cases h
        exact .inl (by rw [hzero])
    · next hzero =>
      split at h
      · next hdigit =>
        cases h
        refine .inr ⟨⟨List.cons_ne_nil _ _, ?_⟩, ?_⟩
        · intro d hd
          rcases List.mem_cons.mp hd with rfl | hd
          · exact hdigit
          · exact List.all_eq_true.mp List.all_takeWhile d hd
        · intro heq
          exact hzero (Option.some.inj heq)
      · cases h

theorem digits_readFraction {chars rest : List Char} {fraction : Option (List Char)}
    (h : readFraction chars = .ok (fraction, rest)) :
    ∀ digits, fraction = some digits → IsDigits digits := by
  intro digits hfraction
  subst hfraction
  unfold readFraction at h
  split at h
  · next chars =>
    split at h
    · split at h <;> cases h
    · next hne =>
      cases h
      exact isDigits_takeWhile hne
  · cases h

theorem digits_readExponentDigits {negative : Bool} {chars rest : List Char}
    {exponent : Option Exponent}
    (h : readExponentDigits negative chars = .ok (exponent, rest)) :
    ∀ e, exponent = some e → IsDigits e.digits := by
  intro e hexponent
  subst hexponent
  unfold readExponentDigits at h
  split at h
  · split at h <;> cases h
  · next hne =>
    cases h
    exact isDigits_takeWhile hne

end Transclude.Json

/-
  Transclude/Proofs/Json/Range.lean
  =================================
  **What a number is worth, and when it is in range.**

  The value of a number is the rational number that its digits and its exponent
  spell.  Whether it is in range is decided on another one, which has the same
  digits but of the exponent only what is taken in (`taken`).  A look at the number
  of digits settles most cases, a comparison of whole numbers the rest, and together
  they decide exactly whether that number is below the bound (`inRange_iff`).

  The two numbers differ only if the exponent is 655360 or more.  Both are then far
  above the bound, or both far below it, unless the digits before the point, or the
  zeros behind it, are as many as the exponent (`finite_iff_of_unbalanced`).
-/
import Mathlib.Algebra.Order.Field.Basic
import Mathlib.Algebra.Order.Field.Rat
import Mathlib.Data.List.Induction
import Mathlib.Tactic.NormNum
import Mathlib.Tactic.Positivity
import Mathlib.Tactic.FieldSimp
import Mathlib.Tactic.Ring
import Transclude.Proofs.Json.Number

namespace Transclude.Json

/-! ### Rows of digits -/

theorem digit_lt {c : Char} (hc : c.isDigit = true) : c.toNat - 48 < 10 := by
  simp only [Char.isDigit, Bool.and_eq_true, decide_eq_true_eq] at hc
  have hupper : c.toNat ≤ 57 := hc.2
  omega

theorem one_le_digit {c : Char} (hc : c.isDigit = true) (hzero : c ≠ '0') : 1 ≤ c.toNat - 48 := by
  simp only [Char.isDigit, Bool.and_eq_true, decide_eq_true_eq] at hc
  have hlower : 48 ≤ c.toNat := hc.1
  have hne : c.toNat ≠ '0'.toNat := fun h => hzero (Char.toNat_inj.mp h)
  have hcode : '0'.toNat = 48 := rfl
  omega

theorem digitsValue_concat (digits : List Char) (c : Char) :
    digitsValue (digits ++ [c]) = 10 * digitsValue digits + (c.toNat - 48) := by
  rw [digitsValue, List.foldl_append]
  rfl

theorem digitsValue_append (digits more : List Char) :
    digitsValue (digits ++ more) = digitsValue digits * 10 ^ more.length + digitsValue more := by
  induction more using List.reverseRecOn with
  | nil => simp [digitsValue]
  | append_singleton more c ih =>
    rw [← List.append_assoc, digitsValue_concat, digitsValue_concat, ih, List.length_append,
      List.length_singleton, pow_succ]
    ring

theorem digitsValue_lt {digits : List Char} (h : ∀ c ∈ digits, c.isDigit = true) :
    digitsValue digits < 10 ^ digits.length := by
  induction digits using List.reverseRecOn with
  | nil => simp [digitsValue]
  | append_singleton digits c ih =>
    have hinit := ih fun d hd => h d (List.mem_append_left _ hd)
    have hlast := digit_lt (h c (by simp))
    rw [digitsValue_concat, List.length_append, List.length_singleton, pow_succ]
    omega

theorem le_digitsValue {c : Char} (hc : c.isDigit = true) (hzero : c ≠ '0') (digits : List Char) :
    10 ^ digits.length ≤ digitsValue (c :: digits) := by
  rw [← List.singleton_append, digitsValue_append]
  have hhead : digitsValue [c] = c.toNat - 48 := by simp [digitsValue]
  rw [hhead]
  exact Nat.le_add_right_of_le (Nat.le_mul_of_pos_left _ (one_le_digit hc hzero))

theorem digitsValue_dropWhile (digits : List Char) :
    digitsValue (digits.dropWhile (· == '0')) = digitsValue digits := by
  induction digits with
  | nil => rfl
  | cons c digits ih =>
    by_cases hc : c = '0'
    · rw [List.dropWhile_cons_of_pos (by simp [hc]), ih, hc, ← List.singleton_append,
        digitsValue_append]
      simp [digitsValue]
    · rw [List.dropWhile_cons_of_neg (by simp [hc])]

namespace Number

/-! ### Values -/

/-- The digits of a number, with its sign, times a power of ten. -/
def times (n : Number) (power : Int) : ℚ :=
  (if n.negative then -1 else 1)
    * (digitsValue n.whole + digitsValue n.fractionDigits / 10 ^ n.fractionDigits.length)
    * 10 ^ power

/-- The exponent that is written. -/
def power (n : Number) : Int :=
  match n.exponent with
  | some e => if e.negative then - (digitsValue e.digits : Int) else digitsValue e.digits
  | none => 0

/-- The exponent as far as it is taken in. -/
def takenPower (n : Number) : Int :=
  match n.exponent with
  | some e => e.value
  | none => 0

/-- The rational number that the text of a number spells. -/
def value (n : Number) : ℚ := n.times n.power

/-- The rational number that is taken in for the conversion to a double. -/
def taken (n : Number) : ℚ := n.times n.takenPower

/-- The double nearest to what is taken in is finite: halfway between the largest double
    and the next power of two, the even one of the two is the infinite one. -/
def Finite (n : Number) : Prop := |n.taken| < 2 ^ 1024 - 2 ^ 970

theorem scale_eq (n : Number) : n.scale = n.takenPower - n.fractionDigits.length := rfl

theorem abs_times (n : Number) (power : Int) :
    |n.times power| = n.mantissa * 10 ^ (power - n.fractionDigits.length) := by
  have hsign : |(if n.negative then -1 else 1 : ℚ)| = 1 := by split <;> simp
  have hmantissa : (n.mantissa : ℚ) =
      digitsValue n.whole * 10 ^ n.fractionDigits.length + digitsValue n.fractionDigits := by
    rw [mantissa, digitsValue_append]
    push_cast
    rfl
  have hdigits : (0 : ℚ) ≤
      digitsValue n.whole + digitsValue n.fractionDigits / 10 ^ n.fractionDigits.length := by
    positivity
  rw [times, abs_mul, abs_mul, hsign, one_mul, abs_of_nonneg hdigits,
    abs_of_pos (zpow_pos (by norm_num) _), hmantissa, zpow_sub₀ (by norm_num), zpow_natCast]
  field_simp

/-! ### The order of magnitude -/

theorem mantissa_eq (n : Number) :
    n.mantissa = digitsValue ((n.whole ++ n.fractionDigits).dropWhile (· == '0')) := by
  rw [digitsValue_dropWhile, mantissa]

theorem Normal.isDigit {n : Number} (hn : n.Normal) :
    ∀ c ∈ n.whole ++ n.fractionDigits, c.isDigit = true := by
  intro c hc
  rcases List.mem_append.mp hc with hc | hc
  · rcases hn.whole with hzero | hdigits
    · rw [hzero, List.mem_singleton] at hc
      rw [hc]
      rfl
    · exact hdigits.1.2 c hc
  · cases hf : n.fraction with
    | none =>
      rw [fractionDigits, hf] at hc
      exact absurd hc List.not_mem_nil
    | some digits =>
      rw [fractionDigits, hf] at hc
      exact (hn.fraction digits hf).2 c hc

theorem mantissa_lt {n : Number} (hn : n.Normal) : n.mantissa < 10 ^ n.significantDigits := by
  rw [mantissa_eq]
  apply digitsValue_lt
  intro c hc
  exact hn.isDigit c ((List.dropWhile_suffix _).mem hc)

theorem le_mantissa {n : Number} (hn : n.Normal) (h : n.significantDigits ≠ 0) :
    10 ^ (n.significantDigits - 1) ≤ n.mantissa := by
  rw [mantissa_eq]
  cases hd : (n.whole ++ n.fractionDigits).dropWhile (· == '0') with
  | nil =>
    rw [significantDigits, hd] at h
    exact absurd rfl h
  | cons c digits =>
    have hmem : c ∈ n.whole ++ n.fractionDigits :=
      (List.dropWhile_suffix _).mem (by rw [hd]; exact List.mem_cons_self)
    have hzero : c ≠ '0' := by
      have hhead := List.head?_dropWhile_not (· == '0') (n.whole ++ n.fractionDigits)
      rw [hd] at hhead
      simpa using hhead
    rw [significantDigits, hd, List.length_cons, Nat.add_sub_cancel]
    exact le_digitsValue (hn.isDigit c hmem) hzero digits

/-- Where the first digit of a number stands that is no zero, counted from the point. -/
def order (n : Number) (power : Int) : Int :=
  n.significantDigits + (power - n.fractionDigits.length)

theorem abs_times_lt {n : Number} (hn : n.Normal) (power : Int) :
    |n.times power| < 10 ^ n.order power := by
  have hmantissa : (n.mantissa : ℚ) < 10 ^ n.significantDigits := by
    exact_mod_cast mantissa_lt hn
  rw [abs_times, order, zpow_add₀ (by norm_num), zpow_natCast]
  exact mul_lt_mul_of_pos_right hmantissa (zpow_pos (by norm_num) _)

theorem le_abs_times {n : Number} (hn : n.Normal) (h : n.significantDigits ≠ 0) (power : Int) :
    10 ^ (n.order power - 1) ≤ |n.times power| := by
  have hmantissa : (10 : ℚ) ^ (n.significantDigits - 1) ≤ n.mantissa := by
    exact_mod_cast le_mantissa hn h
  have horder : n.order power - 1 =
      (n.significantDigits - 1 : Nat) + (power - n.fractionDigits.length) := by
    rw [order]
    omega
  rw [abs_times, horder, zpow_add₀ (by norm_num), zpow_natCast]
  exact mul_le_mul_of_nonneg_right hmantissa (zpow_nonneg (by norm_num) _)

theorem times_eq_zero {n : Number} (hn : n.Normal) (h : n.significantDigits = 0) (power : Int) :
    n.times power = 0 := by
  have hmantissa := mantissa_lt hn
  rw [h, pow_zero, Nat.lt_one_iff] at hmantissa
  rw [← abs_eq_zero, abs_times, hmantissa, Nat.cast_zero, zero_mul]

/-! ### Numbers that their order puts in range or out of range -/

theorem cast_pow_sub_pow {a b : Nat} (h : b ≤ a) :
    ((Nat.pow 2 a - Nat.pow 2 b : Nat) : ℚ) = 2 ^ a - 2 ^ b := by
  rw [Nat.pow_eq, Nat.pow_eq, Nat.cast_sub (pow_le_pow_right₀ one_le_two h), Nat.cast_pow,
    Nat.cast_pow, Nat.cast_ofNat]

theorem cast_bound : (bound : ℚ) = 2 ^ 1024 - 2 ^ 970 := cast_pow_sub_pow (by norm_num)

-- Large powers are split into powers of powers, which can be compared by their digits.
theorem pow_lt_bound : (10 : ℚ) ^ 308 < 2 ^ 1024 - 2 ^ 970 := by
  rw [show 308 = 154 * 2 by rfl, show 1024 = 256 * 4 by rfl, show 970 = 194 * 5 by rfl, pow_mul,
    pow_mul, pow_mul]
  norm_num

theorem bound_le_pow : (2 : ℚ) ^ 1024 - 2 ^ 970 ≤ 10 ^ 309 := by
  rw [show 309 = 103 * 3 by rfl, show 1024 = 256 * 4 by rfl, show 970 = 194 * 5 by rfl, pow_mul,
    pow_mul, pow_mul]
  norm_num

theorem bound_pos : (0 : ℚ) < 2 ^ 1024 - 2 ^ 970 :=
  lt_trans (pow_pos (by norm_num) 308) pow_lt_bound

theorem lt_bound_of_order_le {n : Number} (hn : n.Normal) {power : Int}
    (h : n.order power ≤ 308) : |n.times power| < 2 ^ 1024 - 2 ^ 970 :=
  calc |n.times power| < 10 ^ n.order power := abs_times_lt hn power
    _ ≤ 10 ^ ((308 : Nat) : Int) := zpow_le_zpow_right₀ (by norm_num) h
    _ = 10 ^ 308 := zpow_natCast _ _
    _ < 2 ^ 1024 - 2 ^ 970 := pow_lt_bound

theorem bound_le_of_le_order {n : Number} (hn : n.Normal) (hdigits : n.significantDigits ≠ 0)
    {power : Int} (h : 310 ≤ n.order power) : 2 ^ 1024 - 2 ^ 970 ≤ |n.times power| :=
  calc (2 : ℚ) ^ 1024 - 2 ^ 970 ≤ 10 ^ 309 := bound_le_pow
    _ = 10 ^ ((309 : Nat) : Int) := (zpow_natCast _ _).symm
    _ ≤ 10 ^ (n.order power - 1) := zpow_le_zpow_right₀ (by norm_num) (by omega)
    _ ≤ |n.times power| := le_abs_times hn hdigits power

/-- **A number is in range exactly if the double nearest to it is finite.** -/
theorem inRange_iff {n : Number} (hn : n.Normal) : n.inRange = true ↔ n.Finite := by
  have horder : (n.significantDigits + n.scale : Int) = n.order n.takenPower := rfl
  unfold inRange Finite taken
  simp only [horder]
  split
  · next hzero =>
    rw [times_eq_zero hn hzero, abs_zero]
    simp only [bound_pos]
  · next hdigits =>
    split
    · next hsmall => simp [lt_bound_of_order_le hn hsmall]
    · split
      · next hlarge => simp [not_lt.mpr (bound_le_of_le_order hn hdigits hlarge)]
      · rw [abs_times, ← scale_eq, ← cast_bound]
        split
        · next hscale =>
          rw [decide_eq_true_eq]
          obtain ⟨k, hk⟩ := Int.eq_ofNat_of_zero_le hscale
          rw [hk, Int.toNat_natCast, zpow_natCast]
          norm_cast
        · next hscale =>
          rw [decide_eq_true_eq]
          obtain ⟨k, hk⟩ := Int.eq_ofNat_of_zero_le (by omega : 0 ≤ - n.scale)
          rw [hk, Int.toNat_natCast, show n.scale = - (k : Int) by omega, zpow_neg, zpow_natCast,
            ← div_eq_mul_inv, div_lt_iff₀ (by positivity)]
          norm_cast

end Number

/-! ### Exponents that are not taken in as a whole -/

theorem Exponent.magnitude_concat (negative : Bool) (digits : List Char) (c : Char) :
    Exponent.magnitude ⟨negative, digits ++ [c]⟩ =
      if Exponent.magnitude ⟨negative, digits⟩ < Exponent.ceiling then
        10 * Exponent.magnitude ⟨negative, digits⟩ + (c.toNat - 48)
      else Exponent.magnitude ⟨negative, digits⟩ := by
  rw [magnitude, List.foldl_append]
  rfl

/-- An exponent is taken in as a whole, or it is at least ten times the ceiling and what is
    taken in has reached the ceiling. -/
theorem Exponent.magnitude_cases (e : Exponent) :
    e.magnitude = digitsValue e.digits ∨
      65536 ≤ e.magnitude ∧ 655360 ≤ digitsValue e.digits := by
  obtain ⟨negative, digits⟩ := e
  have hceiling : Exponent.ceiling = 65536 := rfl
  induction digits using List.reverseRecOn with
  | nil => exact .inl rfl
  | append_singleton digits c ih =>
    simp only [magnitude_concat, digitsValue_concat, hceiling] at ih ⊢
    split
    · next hbelow => omega
    · next habove => omega

namespace Number

/-- The digits of a number cannot make up for an exponent that is not taken in as a whole:
    a negative one takes away more places than there are before the point, a positive
    one adds more than there are behind it. -/
def Unbalanced (n : Number) : Prop :=
  ∀ e, n.exponent = some e → 655360 ≤ digitsValue e.digits →
    if e.negative then n.whole.length ≤ 65844 else n.fractionDigits.length ≤ 65227

theorem significantDigits_le (n : Number) :
    n.significantDigits ≤ n.whole.length + n.fractionDigits.length := by
  rw [significantDigits, ← List.length_append]
  exact (List.dropWhile_suffix _).length_le

/-- **What is taken in decides as the number itself would**, unless the digits can make up for
    what the exponent loses. -/
theorem finite_iff_of_unbalanced {n : Number} (hn : n.Normal) (h : n.Unbalanced) :
    n.Finite ↔ |n.value| < 2 ^ 1024 - 2 ^ 970 := by
  unfold Finite taken value
  cases he : n.exponent with
  | none => simp only [takenPower, power, he]
  | some e =>
    have htaken : n.takenPower = e.value := by rw [takenPower, he]
    have hpower : n.power =
        if e.negative then - (digitsValue e.digits : Int) else digitsValue e.digits := by
      rw [power, he]
    rcases e.magnitude_cases with hwhole | ⟨hceiling, hlarge⟩
    · rw [htaken, hpower, Exponent.value, hwhole]
    · have hfew := h e he hlarge
      by_cases hdigits : n.significantDigits = 0
      · rw [times_eq_zero hn hdigits, times_eq_zero hn hdigits]
      · cases hsign : e.negative with
        | true =>
          -- both numbers are below 10 ^ 308
          have hle := n.significantDigits_le
          rw [hsign, if_pos rfl] at hfew
          rw [Exponent.value, hsign, if_pos rfl] at htaken
          rw [hsign, if_pos rfl] at hpower
          apply iff_of_true <;> apply lt_bound_of_order_le hn <;> rw [order] <;> omega
        | false =>
          -- both numbers are at least 10 ^ 309
          rw [hsign, if_neg Bool.false_ne_true] at hfew
          rw [Exponent.value, hsign, if_neg Bool.false_ne_true] at htaken
          rw [hsign, if_neg Bool.false_ne_true] at hpower
          apply iff_of_false <;> apply not_lt_of_ge <;> apply bound_le_of_le_order hn hdigits <;>
            rw [order] <;> omega

/-! ### Signs, and rows of numbers -/

theorem finite_of_magnitude {n : Number} (negative : Bool) :
    Finite { n with negative := negative } ↔ n.Finite := by
  unfold Finite taken
  rw [abs_times, abs_times]
  rfl

/-- The first in a row of numbers that has no finite double near it. -/
def FirstInfinite (numbers : List Number) (n : Number) : Prop :=
  ∃ before after, numbers = before ++ n :: after ∧ (∀ m ∈ before, m.Finite) ∧ ¬ n.Finite

theorem find?_eq_some_iff_firstInfinite {numbers : List Number}
    (hnumbers : ∀ n ∈ numbers, n.Normal) {n : Number} :
    (numbers.find? fun n => !n.inRange) = some n ↔ FirstInfinite numbers n := by
  rw [List.find?_eq_some_iff_append]
  constructor
  · rintro ⟨hn, before, after, rfl, hbefore⟩
    refine ⟨before, after, rfl, ?_, ?_⟩
    · intro m hm
      rw [← inRange_iff (hnumbers m (List.mem_append_left _ hm))]
      simpa using hbefore m hm
    · rw [← inRange_iff (hnumbers n (by simp))]
      simpa using hn
  · rintro ⟨before, after, rfl, hbefore, hn⟩
    refine ⟨?_, before, after, rfl, ?_⟩
    · rw [← inRange_iff (hnumbers n (by simp))] at hn
      simpa using hn
    · intro m hm
      have hfinite := hbefore m hm
      rw [← inRange_iff (hnumbers m (List.mem_append_left _ hm))] at hfinite
      simpa using hfinite

theorem exists_firstInfinite_iff {numbers : List Number} (hnumbers : ∀ n ∈ numbers, n.Normal) :
    (∃ n, FirstInfinite numbers n) ↔ ∃ n ∈ numbers, ¬ n.Finite := by
  constructor
  · rintro ⟨n, before, after, rfl, -, hn⟩
    exact ⟨n, by simp, hn⟩
  · rintro ⟨n, hmem, hn⟩
    rw [← inRange_iff (hnumbers n hmem)] at hn
    have hsome : (numbers.find? fun n => !n.inRange).isSome :=
      List.find?_isSome.mpr ⟨n, hmem, by simpa using hn⟩
    obtain ⟨m, hm⟩ := Option.isSome_iff_exists.mp hsome
    exact ⟨m, (find?_eq_some_iff_firstInfinite hnumbers).mp hm⟩

end Number

end Transclude.Json

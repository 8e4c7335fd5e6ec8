/-
  Transclude/Proofs/Json/Spelling.lean
  ====================================
  **Words, numbers and strings are read as they are spelled.**

  For each reader of a part there are two facts: what it takes in is a spelling of
  what it gives back, and every spelling is taken in to its end.  The second needs
  that nothing follows which could be taken for more of the same; for a number that
  is a digit, a point or the mark of an exponent.
-/
import Transclude.Proofs.Json.Grammar
import Transclude.Proofs.Json.Rules

namespace Transclude.Json

/-! ### Space -/

theorem isSpace_iff {c : Char} : isSpace c = true ↔ c = ' ' ∨ c = '\t' ∨ c = '\n' ∨ c = '\r' := by
  simp only [isSpace, Bool.or_eq_true, beq_iff_eq]
  tauto

theorem Space.append {space space' : List Char} (h : Space space) (h' : Space space') :
    Space (space ++ space') := by
  intro c hc
  rcases List.mem_append.mp hc with hc | hc
  · exact h c hc
  · exact h' c hc

theorem exists_space (chars : List Char) :
    ∃ space, Space space ∧ chars = space ++ skipSpace chars := by
  refine ⟨chars.takeWhile isSpace, ?_, List.takeWhile_append_dropWhile.symm⟩
  intro c hc
  exact isSpace_iff.mp (List.all_eq_true.mp List.all_takeWhile c hc)

theorem skipSpace_append {space : List Char} (h : Space space) (rest : List Char) :
    skipSpace (space ++ rest) = skipSpace rest :=
  List.dropWhile_append_of_pos fun c hc => isSpace_iff.mpr (h c hc)

theorem skipSpace_append_cons {space : List Char} (h : Space space) {c : Char}
    (hc : isSpace c = false) (rest : List Char) : skipSpace (space ++ c :: rest) = c :: rest := by
  rw [skipSpace_append h, skipSpace_cons hc]

theorem Space.delimited {space rest : List Char} (h : Space space) (hrest : Delimited rest) :
    Delimited (space ++ rest) := by
  cases space with
  | nil => exact hrest
  | cons c space =>
    apply delimited_cons
    rcases h c List.mem_cons_self with rfl | rfl | rfl | rfl <;> decide

/-! ### Words -/

theorem readWord_spelled {α : Type} {meaning value : α} {expected chars rest : List Char}
    (h : readWord meaning expected chars = .ok (value, rest)) :
    value = meaning ∧ chars = expected ++ rest := by
  fun_induction readWord meaning expected chars with
  | case1 chars =>
    cases h
    exact ⟨rfl, rfl⟩
  | case2 => cases h
  | case3 e expected rest ih =>
    obtain ⟨hvalue, hrest⟩ := ih h
    exact ⟨hvalue, by rw [hrest, List.cons_append]⟩
  | case4 => cases h

/-! ### Numbers -/

theorem readWhole_spelled {chars whole rest : List Char} (h : readWhole chars = .ok (whole, rest)) :
    chars = whole ++ rest := by
  cases chars with
  | nil => cases h
  | cons c chars =>
    rw [readWhole] at h
    split at h
    · split at h <;> cases h
      rfl
    · split at h <;> cases h
      rw [List.cons_append, List.takeWhile_append_dropWhile]

theorem readFraction_spelled {chars rest : List Char} {fraction : Option (List Char)}
    (h : readFraction chars = .ok (fraction, rest)) :
    ∃ part, chars = part ++ rest ∧ FractionPart part fraction := by
  have hdigits := digits_readFraction h
  unfold readFraction at h
  split at h
  · next chars =>
    split at h
    · split at h <;> cases h
    · cases h
      exact ⟨_, by rw [List.cons_append, List.takeWhile_append_dropWhile], .point (hdigits _ rfl)⟩
  · cases h
    exact ⟨[], rfl, .absent⟩

theorem readExponentDigits_spelled {negative : Bool} {chars rest : List Char}
    {exponent : Option Exponent} (h : readExponentDigits negative chars = .ok (exponent, rest)) :
    ∃ digits, IsDigits digits ∧ exponent = some ⟨negative, digits⟩ ∧ chars = digits ++ rest := by
  have hdigits := digits_readExponentDigits h
  unfold readExponentDigits at h
  split at h
  · split at h <;> cases h
  · cases h
    exact ⟨_, hdigits _ rfl, rfl, List.takeWhile_append_dropWhile.symm⟩

theorem readExponent_spelled {chars rest : List Char} {exponent : Option Exponent}
    (h : readExponent chars = .ok (exponent, rest)) :
    ∃ part settled, chars = part ++ rest ∧ ExponentPart part exponent settled := by
  unfold readExponent at h
  split at h
  · next mark chars =>
    split at h
    · next hmark =>
      split at h
      · obtain ⟨digits, hdigits, rfl, rfl⟩ := readExponentDigits_spelled h
        exact ⟨_, _, rfl, .minus hmark hdigits⟩
      · obtain ⟨digits, hdigits, rfl, rfl⟩ := readExponentDigits_spelled h
        exact ⟨_, _, rfl, .plus hmark hdigits⟩
      · obtain ⟨digits, hdigits, rfl, rfl⟩ := readExponentDigits_spelled h
        exact ⟨_, _, rfl, .plain hmark hdigits⟩
    · cases h
      exact ⟨[], [], rfl, .absent⟩
  · cases h
    exact ⟨[], [], rfl, .absent⟩

theorem FractionPart.eq_chars {part : List Char} {n : Number} (h : FractionPart part n.fraction) :
    n.fractionChars = part := by
  unfold Number.fractionChars
  generalize n.fraction = fraction at h
  cases h <;> rfl

theorem ExponentPart.eq_chars {part settled : List Char} {n : Number}
    (h : ExponentPart part n.exponent settled) : n.exponentChars = settled := by
  unfold Number.exponentChars
  generalize n.exponent = exponent at h
  cases h <;> rfl

/-- **A number that is read is spelled by what was taken in**, behind its sign. -/
theorem readNumber_spelled {negative : Bool} {sign chars rest : List Char} {n : Number}
    (hsign : SignPart sign negative) (h : readNumber negative chars = .ok (n, rest)) :
    ∃ body, sign ++ chars = body ++ rest ∧ Numeral body n := by
  simp only [readNumber, Result.bind_eq_ok_iff] at h
  obtain ⟨⟨whole, rest₁⟩, hwhole, ⟨fraction, rest₂⟩, hfraction, ⟨exponent, rest₃⟩, hexponent,
    hn⟩ := h
  cases hn
  obtain ⟨part, rfl, hpart⟩ := readFraction_spelled hfraction
  obtain ⟨part', settled, rfl, hpart'⟩ := readExponent_spelled hexponent
  obtain rfl := readWhole_spelled hwhole
  refine ⟨_, ?_, .spelled hsign (whole_readWhole hwhole) rfl hpart hpart' ?_⟩
  · simp only [List.append_assoc]
  · have htext := Number.magnitudeChars_eq ⟨negative, whole, fraction, exponent⟩
    rw [FractionPart.eq_chars hpart, ExponentPart.eq_chars hpart', List.append_assoc] at htext
    rw [Number.chars, htext]
    cases hsign <;> rfl

theorem readExponent_of_part {part settled rest : List Char} {exponent : Option Exponent}
    (h : ExponentPart part exponent settled) (hrest : Delimited rest) :
    readExponent (part ++ rest) = .ok (exponent, rest) := by
  cases h with
  | absent =>
    apply readExponent_none
    constructor
    · intro h
      exact (hrest 'e' h).2.2.1 rfl
    · intro h
      exact (hrest 'E' h).2.2.2 rfl
  | @plain mark digits hmark hdigits =>
    obtain ⟨hne, hall⟩ := hdigits
    cases digits with
    | nil => exact absurd rfl hne
    | cons d digits =>
      have hread := readExponentDigits_append false ⟨hne, hall⟩ hrest.noDigit
      have hd := hall d List.mem_cons_self
      simp only [List.cons_append, readExponent, hmark, if_true]
      -- a digit is no sign
      split
      · next heq => exact absurd (List.cons.inj heq).1 (ne_of_isDigit hd rfl)
      · next heq => exact absurd (List.cons.inj heq).1 (ne_of_isDigit hd rfl)
      · exact hread
  | plus hmark hdigits =>
    simp only [List.cons_append, readExponent, hmark, if_true]
    exact readExponentDigits_append false hdigits hrest.noDigit
  | minus hmark hdigits =>
    simp only [List.cons_append, readExponent, hmark, if_true]
    exact readExponentDigits_append true hdigits hrest.noDigit

theorem ExponentPart.noDigit {part settled rest : List Char} {exponent : Option Exponent}
    (h : ExponentPart part exponent settled) (hrest : Delimited rest) : NoDigit (part ++ rest) := by
  have hmark : ∀ {mark : Char}, mark = 'e' ∨ mark = 'E' → mark.isDigit = false := by
    rintro mark (rfl | rfl) <;> decide
  cases h with
  | absent => exact hrest.noDigit
  | plain heither => exact noDigit_cons (hmark heither) _
  | plus heither => exact noDigit_cons (hmark heither) _
  | minus heither => exact noDigit_cons (hmark heither) _

theorem ExponentPart.noPoint {part settled rest : List Char} {exponent : Option Exponent}
    (h : ExponentPart part exponent settled) (hrest : Delimited rest) :
    (part ++ rest).head? ≠ some '.' := by
  intro hpoint
  cases h with
  | absent => exact (hrest '.' hpoint).2.1 rfl
  | plain heither => rcases heither with rfl | rfl <;> simp at hpoint
  | plus heither => rcases heither with rfl | rfl <;> simp at hpoint
  | minus heither => rcases heither with rfl | rfl <;> simp at hpoint

theorem readFraction_of_part {part rest : List Char} {fraction : Option (List Char)}
    (h : FractionPart part fraction) (hdigit : NoDigit rest) (hpoint : rest.head? ≠ some '.') :
    readFraction (part ++ rest) = .ok (fraction, rest) := by
  cases h with
  | absent => exact readFraction_none hpoint
  | point hdigits => exact readFraction_append hdigits hdigit

theorem FractionPart.noDigit {part rest : List Char} {fraction : Option (List Char)}
    (h : FractionPart part fraction) (hrest : NoDigit rest) : NoDigit (part ++ rest) := by
  cases h with
  | absent => exact hrest
  | point _ => exact noDigit_cons (by decide) _

theorem WholePart.head {whole : List Char} (h : WholePart whole) :
    ∃ c chars, whole = c :: chars ∧ c.isDigit = true := by
  rcases h with rfl | ⟨⟨hne, hdigits⟩, -⟩
  · exact ⟨'0', [], rfl, by decide⟩
  · obtain ⟨c, chars, rfl⟩ := List.exists_cons_of_ne_nil hne
    exact ⟨c, chars, rfl, hdigits c List.mem_cons_self⟩

/-- **A spelling of a number is read to its end.** -/
theorem readValue_numeral {body rest : List Char} {n : Number} (h : Numeral body n) (steps : Nat)
    (hrest : Delimited rest) : readValue (steps + 1) (body ++ rest) = .ok (.number n, rest) := by
  obtain ⟨negative, digits, fraction?, exponent?⟩ := n
  cases h with
  | @spelled sign whole fraction exponent settled _ hsign hwhole hsame hfraction hexponent _ =>
    obtain rfl : digits = whole := hsame
    have hdigit := hexponent.noDigit hrest
    have hread : readNumber negative (digits ++ (fraction ++ (exponent ++ rest))) =
        .ok (⟨negative, digits, fraction?, exponent?⟩, rest) := by
      rw [readNumber, readWhole_append hwhole (hfraction.noDigit hdigit)]
      simp only [bind, Except.bind,
        readFraction_of_part hfraction hdigit (hexponent.noPoint hrest),
        readExponent_of_part hexponent hrest]
      rfl
    simp only [List.append_assoc]
    generalize hn : Number.mk negative digits fraction? exponent? = n at hread
    cases hsign with
    | minus => exact readValue_minus hread
    | absent =>
      obtain ⟨c, chars, rfl, hc⟩ := hwhole.head
      exact readValue_digit hc hread

/-! ### Strings -/

theorem value?_eq_some_iff {c : Char} {n : Nat} : Hex.value? c = some n ↔ HexDigit c n := by
  have hle : ∀ a b : Char, a ≤ b ↔ a.toNat ≤ b.toNat := fun _ _ => Iff.rfl
  have hcodes : '0'.toNat = 48 ∧ '9'.toNat = 57 ∧ 'a'.toNat = 97 ∧ 'f'.toNat = 102
      ∧ 'A'.toNat = 65 ∧ 'F'.toNat = 70 := by decide
  obtain ⟨h0, h9, ha, hf, hA, hF⟩ := hcodes
  simp only [Hex.value?, hle, h0, h9, ha, hf, hA, hF]
  constructor
  · intro h
    split at h
    · obtain rfl := Option.some.inj h
      exact .decimal (by omega) (by omega)
    · split at h
      · obtain rfl := Option.some.inj h
        have hdigit : HexDigit c (10 + (c.toNat - 97)) := .lower (by omega) (by omega)
        rwa [show 10 + (c.toNat - 97) = c.toNat - 87 by omega] at hdigit
      · split at h
        · obtain rfl := Option.some.inj h
          have hdigit : HexDigit c (10 + (c.toNat - 65)) := .upper (by omega) (by omega)
          rwa [show 10 + (c.toNat - 65) = c.toNat - 55 by omega] at hdigit
        · cases h
  · rintro (⟨hbelow, hplace⟩ | ⟨hbelow, hplace⟩ | ⟨hbelow, hplace⟩)
    · rw [if_pos (by omega)]
      congr 1
      omega
    · rw [if_neg (by omega), if_pos (by omega)]
      congr 1
      omega
    · rw [if_neg (by omega), if_neg (by omega), if_pos (by omega)]
      congr 1
      omega

theorem HexDigit.lt {c : Char} {n : Nat} (h : HexDigit c n) : n < 16 := by
  cases h <;> omega

theorem unit?_eq_some_iff {a b c d : Char} {n : Nat} :
    unit? a b c d = some n ↔ HexUnit [a, b, c, d] n := by
  have hunit : unit? a b c d = some n ↔ ∃ w x y z, HexDigit a w ∧ HexDigit b x ∧ HexDigit c y
      ∧ HexDigit d z ∧ n = w * 4096 + x * 256 + y * 16 + z := by
    simp only [unit?, bind, pure, Option.bind_eq_some_iff, value?_eq_some_iff, Option.some.injEq]
    constructor
    · rintro ⟨w, hw, x, hx, y, hy, z, hz, rfl⟩
      exact ⟨w, x, y, z, hw, hx, hy, hz, by omega⟩
    · rintro ⟨w, x, y, z, hw, hx, hy, hz, rfl⟩
      exact ⟨w, hw, x, hx, y, hy, z, hz, by omega⟩
  rw [hunit]
  constructor
  · rintro ⟨w, x, y, z, hw, hx, hy, hz, rfl⟩
    exact .four hw hx hy hz
  · rintro ⟨hw, hx, hy, hz⟩
    exact ⟨_, _, _, _, hw, hx, hy, hz, rfl⟩

theorem HexUnit.cases {hex : List Char} {n : Nat} (h : HexUnit hex n) :
    n < 0x10000 ∧ ∃ a b c d, hex = [a, b, c, d] ∧ unit? a b c d = some n := by
  have hunit := h
  cases h with
  | four hw hx hy hz =>
    have := hw.lt
    have := hx.lt
    have := hy.lt
    have := hz.lt
    exact ⟨by omega, _, _, _, _, rfl, unit?_eq_some_iff.mpr hunit⟩

theorem shortEscape?_eq_some_iff {e c : Char} :
    shortEscape? e = some c ↔ (e, c) ∈ shortEscapes := by
  simp only [shortEscape?, shortEscapes, List.mem_cons, List.not_mem_nil, Prod.mk.injEq]
  split_ifs with h₁ h₂ h₃ h₄ h₅ h₆ h₇ h₈ <;> simp_all [eq_comm]

theorem andThen_eq_ok_iff {c : Char} {reading : Except Stop (List Char × List Char)}
    {text rest : List Char} : andThen c reading = .ok (text, rest) ↔
      ∃ text', reading = .ok (text', rest) ∧ text = c :: text' := by
  unfold andThen
  cases reading with
  | error stop => simp [Except.map]
  | ok result =>
    obtain ⟨text', rest'⟩ := result
    simp [Except.map, eq_comm, and_comm]

theorem toNat_ofNat {n : Nat} (h : n < 0xD800 ∨ 0xDFFF < n ∧ n < 0x110000) :
    (Char.ofNat n).toNat = n := by
  have hvalid : n.isValidChar := h
  rw [Char.ofNat, dif_pos hvalid]
  rfl

/-- **A string that is read is spelled by what was taken in**, up to the closing quote. -/
theorem readString_spelled {chars text rest : List Char}
    (h : readString chars = .ok (text, rest)) :
    ∃ spelled, chars = spelled ++ '"' :: rest ∧ Characters spelled text := by
  fun_induction readString chars generalizing text with
  | case2 =>
    cases h
    exact ⟨[], rfl, .nil⟩
  | case8 a b c d leading hunit _ hleading a' b' c' d' chars trailing hunit' htrailing ih =>
    obtain ⟨text', hread, rfl⟩ := andThen_eq_ok_iff.mp h
    obtain ⟨spelled, rfl, hspelled⟩ := ih hread
    simp only [isLeading, isTrailing, Bool.and_eq_true, decide_eq_true_eq] at hleading htrailing
    obtain ⟨l, rfl⟩ := Nat.exists_eq_add_of_le hleading.1
    obtain ⟨t, rfl⟩ := Nat.exists_eq_add_of_le htrailing.1
    refine ⟨_, ?_, .pair (unit?_eq_some_iff.mp hunit) (by omega) (unit?_eq_some_iff.mp hunit')
      (by omega) ?_ hspelled⟩
    · rfl
    · rw [pairChar, toNat_ofNat (by omega)]
      omega
  | case13 a b c d chars unit hunit hnoTrailing hnoLeading ih =>
    obtain ⟨text', hread, rfl⟩ := andThen_eq_ok_iff.mp h
    obtain ⟨spelled, rfl, hspelled⟩ := ih hread
    have hhex := unit?_eq_some_iff.mp hunit
    have hlt := hhex.cases.1
    simp only [isLeading, isTrailing, Bool.and_eq_true, decide_eq_true_eq] at hnoLeading hnoTrailing
    have hcode : (Char.ofNat unit).toNat = unit := toNat_ofNat (by omega)
    rw [← hcode] at hhex
    exact ⟨_, rfl, .unit hhex hspelled⟩
  | case16 e chars _ _ c hescape ih =>
    obtain ⟨text', hread, rfl⟩ := andThen_eq_ok_iff.mp h
    obtain ⟨spelled, rfl, hspelled⟩ := ih hread
    exact ⟨'\\' :: e :: spelled, rfl, .short (shortEscape?_eq_some_iff.mp hescape) hspelled⟩
  | case19 c chars hquote _ _ hend hescape hcontrol ih =>
    obtain ⟨text', hread, rfl⟩ := andThen_eq_ok_iff.mp h
    obtain ⟨spelled, rfl, hspelled⟩ := ih hread
    have hbackslash : c ≠ '\\' := by
      intro hc
      cases hchars : spelled ++ '"' :: rest with
      | nil => exact hend hc hchars
      | cons e chars => exact hescape e chars hc hchars
    exact ⟨c :: spelled, rfl, .plain hquote hbackslash (by omega) hspelled⟩
  | _ => cases h

theorem readString_plain {c : Char} (hquote : c ≠ '"') (hbackslash : c ≠ '\\')
    (h : ¬ c.toNat < 0x20) (rest : List Char) :
    readString (c :: rest) = andThen c (readString rest) := by
  rw [readString, if_neg h]
  -- what is left says that no escape starts here
  · exact hquote
  · intro _ _ _ _ _ hc
    exact absurd hc hbackslash
  · intro _ hc
    exact absurd hc hbackslash
  · intro hc
    exact absurd hc hbackslash
  · intro _ _ hc
    exact absurd hc hbackslash

/-- Four hexadecimal digits stand for the character of that number.  No character has the
    number of a surrogate. -/
theorem readString_hex {a b c d char : Char} (hunit : unit? a b c d = some char.toNat)
    (rest : List Char) :
    readString ('\\' :: 'u' :: a :: b :: c :: d :: rest) = andThen char (readString rest) := by
  have hvalid : char.toNat < 0xD800 ∨ 0xDFFF < char.toNat :=
    char.valid.imp_right And.left
  have htrailing : isTrailing char.toNat = false := by
    simp only [isTrailing, Bool.and_eq_false_iff, decide_eq_false_iff_not]
    omega
  have hleading : isLeading char.toNat = false := by
    simp only [isLeading, Bool.and_eq_false_iff, decide_eq_false_iff_not]
    omega
  rw [readString]
  simp only [hunit, htrailing, hleading, Bool.false_eq_true, if_false, Char.ofNat_toNat]

theorem readString_short {e c : Char} (h : (e, c) ∈ shortEscapes) (rest : List Char) :
    readString ('\\' :: e :: rest) = andThen c (readString rest) := by
  simp only [shortEscapes, List.mem_cons, List.not_mem_nil, Prod.mk.injEq, or_false] at h
  rcases h with ⟨rfl, rfl⟩ | ⟨rfl, rfl⟩ | ⟨rfl, rfl⟩ | ⟨rfl, rfl⟩ | ⟨rfl, rfl⟩ | ⟨rfl, rfl⟩ |
    ⟨rfl, rfl⟩ | ⟨rfl, rfl⟩ <;> rfl

theorem readString_pair {a b c d a' b' c' d' : Char} {leading trailing : Nat}
    (hunit : unit? a b c d = some leading) (hleading : isLeading leading = true)
    (hunit' : unit? a' b' c' d' = some trailing) (htrailing : isTrailing trailing = true)
    (rest : List Char) :
    readString ('\\' :: 'u' :: a :: b :: c :: d :: '\\' :: 'u' :: a' :: b' :: c' :: d' :: rest) =
      andThen (pairChar leading trailing) (readString rest) := by
  have hnoTrailing : isTrailing leading = false := by
    simp only [isLeading, isTrailing, Bool.and_eq_true, decide_eq_true_eq, Bool.and_eq_false_iff,
      decide_eq_false_iff_not] at hleading ⊢
    omega
  rw [readString]
  simp only [hunit, hnoTrailing, hleading, hunit', htrailing, Bool.false_eq_true, if_false, if_true]

/-- **A spelling of a string is read to its closing quote.** -/
theorem readString_of_characters {spelled text : List Char} (h : Characters spelled text)
    (rest : List Char) : readString (spelled ++ '"' :: rest) = .ok (text, rest) := by
  induction h with
  | nil => rw [List.nil_append, readString]
  | plain hquote hbackslash hcontrol _ ih =>
    rw [List.cons_append, readString_plain hquote hbackslash (by omega), ih]
    rfl
  | short hescape _ ih =>
    rw [List.cons_append, List.cons_append, readString_short hescape, ih]
    rfl
  | unit hhex _ ih =>
    obtain ⟨-, a, b, c, d, rfl, hunit⟩ := hhex.cases
    simp only [List.cons_append, List.nil_append]
    rw [readString_hex hunit, ih]
    rfl
  | @pair char _ _ _ _ leading trailing hhex hleading hhex' htrailing hjoined _ ih =>
    obtain ⟨-, a, b, c, d, rfl, hunit⟩ := hhex.cases
    obtain ⟨-, a', b', c', d', rfl, hunit'⟩ := hhex'.cases
    have hchar : pairChar (0xD800 + leading) (0xDC00 + trailing) = char := by
      rw [pairChar, Nat.add_sub_cancel_left, Nat.add_sub_cancel_left, ← hjoined, Char.ofNat_toNat]
    simp only [List.cons_append, List.nil_append]
    rw [readString_pair hunit (by simp [isLeading]; omega) hunit' (by simp [isTrailing]; omega), ih,
      hchar]
    rfl

end Transclude.Json

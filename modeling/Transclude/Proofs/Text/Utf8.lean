/-
  Transclude/Proofs/Text/Utf8.lean
  ================================
  **Well-formed text is read as it is, wherever it stands.**

  The machine that reads bytes holds at most one character in hand.  What it has
  given out after some bytes and what it holds then (`feed`) is all that matters for
  the bytes that follow.  A character in hand can only be continued by a byte that
  no character starts with, so the first byte of a character makes the machine give
  up what it holds, and after the last byte it holds nothing.  Hence text between
  any two byte strings comes out whole, and both of them are read as if they stood
  alone (`lossy_between`).
-/
import Transclude.Text.Utf8
import Mathlib.Tactic.SplitIfs

namespace Transclude.Utf8

/-! ### The machine after some bytes -/

/-- What the machine has given out and what it holds after some bytes. -/
def feed : Option Pending → List UInt8 → Step
  | state, [] => ([], state)
  | state, b :: rest =>
    ((step state b).1 ++ (feed (step state b).2 rest).1, (feed (step state b).2 rest).2)

/-- What a character in hand comes to if it is not continued. -/
def abandoned : Option Pending → List (Option Char)
  | none => []
  | some _ => [none]

theorem feed_append (state : Option Pending) (front back : List UInt8) :
    feed state (front ++ back) =
      ((feed state front).1 ++ (feed (feed state front).2 back).1,
        (feed (feed state front).2 back).2) := by
  induction front generalizing state with
  | nil => simp [feed]
  | cons b front ih => simp [feed, ih]

theorem piecesFrom_eq (state : Option Pending) (bytes : List UInt8) :
    piecesFrom state bytes = (feed state bytes).1 ++ abandoned (feed state bytes).2 := by
  induction bytes generalizing state with
  | nil => cases state <;> simp [piecesFrom, feed, abandoned]
  | cons b bytes ih => simp [piecesFrom, feed, ih]

/-! ### Bytes that continue no character -/

/-- What is in hand waits for bytes that no character starts with. -/
def Awaiting : Option Pending → Prop
  | none => True
  | some p => 0x80 ≤ p.low ∧ p.high ≤ 0xBF

theorem step_none (b : UInt8) : step none b = start b := rfl

theorem step_some (p : Pending) (b : UInt8) :
    step (some p) b =
      if p.low ≤ b ∧ b ≤ p.high then
        match p.more with
        | 0 => ([some (Char.ofNat (p.bits * 64 + (b.toNat - 0x80)))], none)
        | more + 1 => ([], some ⟨p.bits * 64 + (b.toNat - 0x80), 0x80, 0xBF, more⟩)
      else (none :: (start b).1, (start b).2) := rfl

theorem awaiting_start (b : UInt8) : Awaiting (start b).2 := by
  unfold start
  split_ifs <;> simp [Awaiting]

theorem awaiting_step (state : Option Pending) (b : UInt8) : Awaiting (step state b).2 := by
  rcases state with _ | p
  · exact awaiting_start b
  · rw [step_some]
    by_cases hrange : p.low ≤ b ∧ b ≤ p.high
    · rw [if_pos hrange]
      cases p.more <;> simp [Awaiting]
    · rw [if_neg hrange]
      exact awaiting_start b

theorem awaiting_feed {state : Option Pending} (h : Awaiting state) (bytes : List UInt8) :
    Awaiting (feed state bytes).2 := by
  induction bytes generalizing state with
  | nil => exact h
  | cons b bytes ih => exact ih (awaiting_step state b)

/-- A byte with which a character may start. -/
def Leading (b : UInt8) : Prop := b < 0x80 ∨ 0xBF < b

theorem step_of_leading {state : Option Pending} {b : UInt8} (h : Awaiting state)
    (hb : Leading b) : step state b = (abandoned state ++ (start b).1, (start b).2) := by
  cases state with
  | none => rfl
  | some p =>
    obtain ⟨hlow, hhigh⟩ := h
    have hrange : ¬ (p.low ≤ b ∧ b ≤ p.high) := by
      rintro ⟨hb₁, hb₂⟩
      rcases hb with hb | hb
      · exact absurd (UInt8.lt_of_lt_of_le hb (UInt8.le_trans hlow hb₁)) (UInt8.lt_irrefl b)
      · exact absurd (UInt8.lt_of_le_of_lt (UInt8.le_trans hb₂ hhigh) hb) (UInt8.lt_irrefl b)
    rw [step_some, if_neg hrange]
    rfl

theorem feed_of_leading {state : Option Pending} {b : UInt8} (h : Awaiting state)
    (hb : Leading b) (bytes : List UInt8) :
    feed state (b :: bytes) =
      (abandoned state ++ (feed none (b :: bytes)).1, (feed none (b :: bytes)).2) := by
  rw [feed, feed, step_of_leading h hb, step_none]
  simp

/-! ### The encoding of one character -/

theorem start_one : ∀ n < 0x80,
    start (UInt8.ofNat n) = ([some (Char.ofNat n)], none) := by decide

theorem start_two : ∀ n < 32, 2 ≤ n →
    start (UInt8.ofNat (n + 0xC0)) = ([], some ⟨n, 0x80, 0xBF, 0⟩) := by decide

theorem start_three : ∀ n < 16,
    start (UInt8.ofNat (n + 0xE0)) =
      ([], some ⟨n, if n = 0 then 0xA0 else 0x80, if n = 13 then 0x9F else 0xBF, 1⟩) := by decide

theorem start_four : ∀ n < 5,
    start (UInt8.ofNat (n + 0xF0)) =
      ([], some ⟨n, if n = 0 then 0x90 else 0x80, if n = 4 then 0x8F else 0xBF, 2⟩) := by decide

/-- A byte in the range continues or completes the character in hand. -/
theorem step_continued {bits more n : Nat} {low high : UInt8} (hn : n < 64)
    (hlow : low.toNat ≤ n + 0x80) (hhigh : n + 0x80 ≤ high.toNat) :
    step (some ⟨bits, low, high, more⟩) (UInt8.ofNat (n + 0x80)) =
      match more with
      | 0 => ([some (Char.ofNat (bits * 64 + n))], none)
      | more + 1 => ([], some ⟨bits * 64 + n, 0x80, 0xBF, more⟩) := by
  have hbyte : (UInt8.ofNat (n + 0x80)).toNat = n + 0x80 := by
    simp only [UInt8.toNat_ofNat']
    omega
  have hrange : low ≤ UInt8.ofNat (n + 0x80) ∧ UInt8.ofNat (n + 0x80) ≤ high := by
    rw [UInt8.le_iff_toNat_le, UInt8.le_iff_toNat_le, hbyte]
    exact ⟨hlow, hhigh⟩
  rw [step_some, if_pos hrange, hbyte, Nat.add_sub_cancel]

/-- A byte that may follow any but the first byte. -/
theorem step_tail {bits more n : Nat} (hn : n < 64) :
    step (some ⟨bits, 0x80, 0xBF, more⟩) (UInt8.ofNat (n + 0x80)) =
      match more with
      | 0 => ([some (Char.ofNat (bits * 64 + n))], none)
      | more + 1 => ([], some ⟨bits * 64 + n, 0x80, 0xBF, more⟩) := by
  apply step_continued hn
  · exact Nat.le_add_left _ _
  · show n + 0x80 ≤ 0xBF
    omega

theorem feed_two {v : Nat} (hlow : 0x80 ≤ v) (hhigh : v < 0x800) :
    feed none [UInt8.ofNat (v / 64 % 32 + 0xC0), UInt8.ofNat (v % 64 + 0x80)] =
      ([some (Char.ofNat v)], none) := by
  have hvalue : v / 64 % 32 * 64 + v % 64 = v := by omega
  simp only [feed, step_none, start_two (v / 64 % 32) (by omega) (by omega),
    step_tail (show v % 64 < 64 by omega), hvalue, List.nil_append, List.append_nil]

theorem feed_three {v : Nat} (hlow : 0x800 ≤ v) (hhigh : v < 0x10000)
    (hvalid : v < 0xD800 ∨ 0xDFFF < v) :
    feed none [UInt8.ofNat (v / 4096 % 16 + 0xE0), UInt8.ofNat (v / 64 % 64 + 0x80),
        UInt8.ofNat (v % 64 + 0x80)] = ([some (Char.ofNat v)], none) := by
  have hvalue : (v / 4096 % 16 * 64 + v / 64 % 64) * 64 + v % 64 = v := by omega
  have hsecond : ∀ more, step (some ⟨v / 4096 % 16, if v / 4096 % 16 = 0 then 0xA0 else 0x80,
      if v / 4096 % 16 = 13 then 0x9F else 0xBF, more + 1⟩) (UInt8.ofNat (v / 64 % 64 + 0x80)) =
        ([], some ⟨v / 4096 % 16 * 64 + v / 64 % 64, 0x80, 0xBF, more⟩) := by
    intro more
    apply step_continued (by omega)
    · split_ifs with hzero
      · show 0xA0 ≤ _
        omega
      · exact Nat.le_add_left _ _
    · split_ifs with hsurrogate
      · show _ ≤ 0x9F
        omega
      · show _ ≤ 0xBF
        omega
  simp only [feed, step_none, start_three (v / 4096 % 16) (by omega), hsecond,
    step_tail (show v % 64 < 64 by omega), hvalue, List.nil_append, List.append_nil]

theorem feed_four {v : Nat} (hlow : 0x10000 ≤ v) (hhigh : v < 0x110000) :
    feed none [UInt8.ofNat (v / 262144 % 8 + 0xF0), UInt8.ofNat (v / 4096 % 64 + 0x80),
        UInt8.ofNat (v / 64 % 64 + 0x80), UInt8.ofNat (v % 64 + 0x80)] =
      ([some (Char.ofNat v)], none) := by
  have hvalue : ((v / 262144 % 8 * 64 + v / 4096 % 64) * 64 + v / 64 % 64) * 64 + v % 64 = v := by
    omega
  have hsecond : ∀ more, step (some ⟨v / 262144 % 8, if v / 262144 % 8 = 0 then 0x90 else 0x80,
      if v / 262144 % 8 = 4 then 0x8F else 0xBF, more + 1⟩)
        (UInt8.ofNat (v / 4096 % 64 + 0x80)) =
        ([], some ⟨v / 262144 % 8 * 64 + v / 4096 % 64, 0x80, 0xBF, more⟩) := by
    intro more
    apply step_continued (by omega)
    · split_ifs with hzero
      · show 0x90 ≤ _
        omega
      · exact Nat.le_add_left _ _
    · split_ifs with hlast
      · show _ ≤ 0x8F
        omega
      · show _ ≤ 0xBF
        omega
  simp only [feed, step_none, start_four (v / 262144 % 8) (by omega), hsecond,
    step_tail (show v % 64 < 64 by omega), step_tail (show v / 64 % 64 < 64 by omega), hvalue,
    List.nil_append, List.append_nil]

/-- **The encoding of a character is read as that character.**  The second byte of a longer
    form is in the range that the first one asks for, since no shorter form would have done and
    the character is no surrogate. -/
theorem feed_char (c : Char) : feed none (String.utf8EncodeChar c) = ([some c], none) := by
  have hvalid : c.val.toNat < 0xD800 ∨ 0xDFFF < c.val.toNat ∧ c.val.toNat < 0x110000 := c.valid
  have hchar : Char.ofNat c.val.toNat = c := Char.ofNat_toNat c
  unfold String.utf8EncodeChar
  simp only
  split_ifs with hone htwo hthree
  · simp only [feed, step_none, start_one _ (Nat.lt_succ_of_le hone), hchar, List.append_nil]
  · rw [feed_two (by omega) (by omega), hchar]
  · rw [feed_three (by omega) (by omega) (by omega), hchar]
  · rw [feed_four (by omega) (by omega), hchar]

theorem leading_head (c : Char) :
    ∃ b rest, String.utf8EncodeChar c = b :: rest ∧ Leading b := by
  unfold String.utf8EncodeChar Leading
  simp only [UInt8.lt_iff_toNat_lt]
  split_ifs with hone htwo hthree
  · refine ⟨_, _, rfl, .inl ?_⟩
    simp only [UInt8.toNat_ofNat', UInt8.reduceToNat]
    omega
  · refine ⟨_, _, rfl, .inr ?_⟩
    simp only [UInt8.toNat_ofNat', UInt8.reduceToNat]
    omega
  · refine ⟨_, _, rfl, .inr ?_⟩
    simp only [UInt8.toNat_ofNat', UInt8.reduceToNat]
    omega
  · refine ⟨_, _, rfl, .inr ?_⟩
    simp only [UInt8.toNat_ofNat', UInt8.reduceToNat]
    omega

/-! ### Text between bytes -/

theorem feed_awaiting_char {state : Option Pending} (h : Awaiting state) (c : Char) :
    feed state (String.utf8EncodeChar c) = (abandoned state ++ [some c], none) := by
  obtain ⟨b, rest, hbytes, hb⟩ := leading_head c
  rw [hbytes, feed_of_leading h hb, ← hbytes, feed_char]

theorem feed_chars (chars : List Char) :
    feed none (chars.flatMap String.utf8EncodeChar) = (chars.map some, none) := by
  induction chars with
  | nil => rfl
  | cons c chars ih =>
    rw [List.flatMap_cons, feed_append, feed_char, ih]
    rfl

/-- After a text that is not empty nothing is in hand, whatever was in hand before. -/
theorem feed_text {state : Option Pending} (h : Awaiting state) {text : String} (hne : text ≠ "") :
    feed state (encode text) = (abandoned state ++ text.toList.map some, none) := by
  rcases hchars : text.toList with _ | ⟨c, chars⟩
  · exact absurd (String.toList_eq_nil_iff.mp hchars) hne
  · rw [encode, hchars, List.flatMap_cons, feed_append, feed_awaiting_char h, feed_chars]
    simp

/-- **The pieces of bytes around a text are those of the bytes before it, its characters, and
    those of the bytes behind it.** -/
theorem pieces_between (before behind : List UInt8) {text : String} (hne : text ≠ "") :
    pieces (before ++ encode text ++ behind) =
      pieces before ++ text.toList.map some ++ pieces behind := by
  have hnone : Awaiting none := trivial
  have hawaiting : Awaiting (feed none before).2 := awaiting_feed hnone before
  simp only [pieces, piecesFrom_eq, feed_append, feed_text hawaiting hne]
  simp [List.append_assoc]

/-- **Text comes out whole, whatever bytes it stands between.** -/
theorem lossy_between (before behind : List UInt8) {text : String} (hne : text ≠ "") :
    lossy (before ++ encode text ++ behind) = lossy before ++ text ++ lossy behind := by
  apply String.toList_injective
  rw [lossy, pieces_between before behind hne]
  simp [lossy, Function.comp_def]

/-- **The bytes of a text are read as that text.** -/
theorem lossy_encode (text : String) : lossy (encode text) = text := by
  by_cases hne : text = ""
  · subst hne
    rfl
  · simpa [show lossy [] = "" from rfl] using lossy_between [] [] hne

end Transclude.Utf8

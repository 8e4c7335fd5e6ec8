/-
  Transclude/Proofs/Location.lean
  ===============================
  **Locations are exact, ordered and unambiguous.**

  In a text of less than 2³² bytes every offset has a position, and it is the one that
  counting newlines and characters defines (`lookup?_position`).  Positions grow with
  offsets, so nodes that start at different characters are told apart by their
  positions and also by the text in which their location is written
  (`position_ordered`): a location ends with two numbers, and a number holds no colon.
-/
import Transclude.Proofs.Text.LineIndex
import Transclude.Source

namespace Transclude.SourceFile

/-! ### Positions -/

section Positions

variable {file : SourceFile} (hsize : file.text.utf8ByteSize < 2 ^ 32)

include hsize

/-- A position is looked up with a result, which is the one that walking over the text has. -/
theorem position_eq (offset : UInt32) :
    file.position offset = .ofOffset file.text offset.toNat := by
  rw [position, LineIndex.lookup?_eq_some hsize, Option.getD_some]

theorem lookup?_eq_position (offset : UInt32) :
    LineIndex.lookup? file.text offset = some (file.position offset) := by
  rw [LineIndex.lookup?_eq_some hsize, position_eq hsize]

theorem position_le {p q : UInt32} (h : p ≤ q) : file.position p ≤ file.position q := by
  rw [position_eq hsize, position_eq hsize]
  apply Position.ofOffset_mono
  exact UInt32.le_iff_toNat_le.mp h

/-- Later boundaries between characters have later positions. -/
theorem position_lt {p q : UInt32} (h : p < q) (hp : String.Pos.Raw.IsValid file.text ⟨p.toNat⟩)
    (hq : String.Pos.Raw.IsValid file.text ⟨q.toNat⟩) : file.position p < file.position q := by
  rw [position_eq hsize, position_eq hsize]
  exact Position.ofOffset_lt (UInt32.lt_iff_toNat_lt.mp h) hp hq

end Positions

/-- **A lookup finds the position of an offset by its definition and never leaves its bounds.**
    In a text of less than 2³² bytes every lookup has a result, also for an offset past the end
    or in the middle of a character.  It is the position that locations are written with: its
    line counts the newline bytes below the offset, and its column counts the whole characters
    from the end of the last of them to the last boundary. -/
theorem lookup?_position (file : SourceFile) (hsize : file.text.utf8ByteSize < 2 ^ 32)
    (offset : UInt32) :
    LineIndex.lookup? file.text offset = some (file.position offset) ∧
    (file.position offset).IsAt file.text (min offset.toNat file.text.utf8ByteSize) := by
  refine ⟨lookup?_eq_position hsize offset, ?_⟩
  rw [position_eq hsize]
  exact Position.isAt_ofOffset_min file.text _

/-- A text of two lines with characters of two bytes in both. -/
def lines : SourceFile := ⟨⟨"main.ts"⟩, "é\nñ f", .synthesize .sourceFile []⟩

/-- An offset in the middle of a character, and one past the end. -/
theorem lookup?_position_lines :
    lines.text.utf8ByteSize < 2 ^ 32 ∧ LineIndex.lookup? lines.text 4 = some ⟨1, 0⟩
      ∧ LineIndex.lookup? lines.text 4294967295 = some ⟨1, 3⟩ := by
  have hsize : lines.text.utf8ByteSize < 2 ^ 32 := by decide
  refine ⟨hsize, ?_, ?_⟩
  · rw [(lookup?_position lines hsize 4).1, position_eq hsize]
    rfl
  · rw [(lookup?_position lines hsize 4294967295).1, position_eq hsize]
    rfl

/-! ### Locations -/

theorem colon_not_mem_toString (n : Nat) : ':' ∉ (toString n).toList := by
  intro hmem
  rw [Nat.toString_eq_repr, Nat.toList_repr] at hmem
  exact absurd (Nat.isDigit_of_mem_toDigits (by decide) (by decide) hmem) (by decide)

theorem eq_of_toString {n m : Nat} (h : (toString n).toList = (toString m).toList) : n = m := by
  rw [Nat.toString_eq_repr, Nat.toString_eq_repr, Nat.toList_repr, Nat.toList_repr] at h
  rw [← Nat.ofDigitChars_ten_toDigits (n := n), h, Nat.ofDigitChars_ten_toDigits]

/-- The text of a location tells its line and its column. -/
theorem position_of_location {file : SourceFile} {n m : Node}
    (h : file.location n = file.location m) :
    file.position n.span.lo = file.position m.span.lo := by
  have hcolon : ":".toList = [':'] := rfl
  have hchars := congrArg String.toList h
  simp only [location, String.toList_append, hcolon, List.append_assoc, List.cons_append,
    List.nil_append, List.append_cancel_left_eq, List.cons.injEq, true_and] at hchars
  -- the colon in the middle is the only one on either side
  obtain ⟨hline, -, hcolumn⟩ := (List.append_cons_inj_of_notMem (colon_not_mem_toString _)
    (colon_not_mem_toString _)).mp hchars
  have hline := Nat.succ.inj (eq_of_toString hline)
  have hcolumn := Nat.succ.inj (eq_of_toString hcolumn)
  apply Position.key_injective
  simp [Position.key, hline, hcolumn]

/-- **Positions are ordered like offsets, and locations are unambiguous.**  In a text of less
    than 2³² bytes any two offsets are found, the later one never at an earlier position; if
    both are boundaries between characters, it is found at a later one.  Nodes that start at
    different characters are therefore located differently. -/
theorem position_ordered (file : SourceFile) (hsize : file.text.utf8ByteSize < 2 ^ 32) :
    (∀ p q : UInt32, p ≤ q → ∃ first second, LineIndex.lookup? file.text p = some first
      ∧ LineIndex.lookup? file.text q = some second ∧ first ≤ second
      ∧ (p < q → String.Pos.Raw.IsValid file.text ⟨p.toNat⟩ →
          String.Pos.Raw.IsValid file.text ⟨q.toNat⟩ → first < second)) ∧
    ∀ n m : Node, String.Pos.Raw.IsValid file.text ⟨n.span.lo.toNat⟩ →
      String.Pos.Raw.IsValid file.text ⟨m.span.lo.toNat⟩ → n.span.lo ≠ m.span.lo →
      file.location n ≠ file.location m := by
  constructor
  · intro p q hpq
    exact ⟨_, _, lookup?_eq_position hsize p, lookup?_eq_position hsize q, position_le hsize hpq,
      position_lt hsize⟩
  · intro n m hn hm hne hlocation
    have hposition := position_of_location hlocation
    have hoffsets : n.span.lo.toNat ≠ m.span.lo.toNat := fun h => hne (UInt32.toNat_inj.mp h)
    rcases Nat.lt_or_gt_of_ne hoffsets with h | h
    · exact (position_lt hsize (UInt32.lt_iff_toNat_lt.mpr h) hn hm).ne hposition
    · exact (position_lt hsize (UInt32.lt_iff_toNat_lt.mpr h) hm hn).ne hposition.symm

/-- A node that starts at the given offset. -/
def startingAt (offset : UInt32) : Node :=
  (Node.synthesize .block []).withSpan ⟨offset, offset, UInt32.le_refl _⟩

theorem position_ordered_lines :
    lines.text.utf8ByteSize < 2 ^ 32 ∧
    String.Pos.Raw.IsValid lines.text ⟨2⟩ ∧ String.Pos.Raw.IsValid lines.text ⟨3⟩ ∧
    (∃ first second, LineIndex.lookup? lines.text 2 = some first
      ∧ LineIndex.lookup? lines.text 3 = some second ∧ first < second) ∧
    lines.location (startingAt 2) ≠ lines.location (startingAt 3) := by
  have hsize : lines.text.utf8ByteSize < 2 ^ 32 := by decide
  have htwo : String.Pos.Raw.IsValid lines.text ⟨2⟩ := by decide
  have hthree : String.Pos.Raw.IsValid lines.text ⟨3⟩ := by decide
  obtain ⟨hordered, hne⟩ := position_ordered lines hsize
  obtain ⟨first, second, hfirst, hsecond, -, hlt⟩ := hordered 2 3 (by decide)
  exact ⟨hsize, htwo, hthree, ⟨first, second, hfirst, hsecond, hlt (by decide) htwo hthree⟩,
    hne _ _ htwo hthree (by decide)⟩

end Transclude.SourceFile

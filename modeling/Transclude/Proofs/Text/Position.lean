/-
  Transclude/Proofs/Text/Position.lean
  ====================================
  **Positions by walking over a text.**

  The position of an offset is where one gets by walking over the characters that fit
  below it.  An offset in the middle of a character is therefore as good as the start
  of that character, and one past the end is as good as the end.  A newline ends a
  line and belongs to it.

  The characters that fit below an offset are the longest run of characters at the
  start of the text that does (`prefix_fitting`).  A larger offset leaves room for the
  same characters and perhaps for more, and each of them moves the position on, to a
  later column or to a later line.  So positions grow with offsets (`ofOffset_mono`),
  and from one boundary between characters to the next they grow strictly
  (`ofOffset_lt`).
-/
import Transclude.Text.LineIndex
import Mathlib.Data.List.Basic
import Mathlib.Data.Prod.Lex
import Mathlib.Data.String.Basic

namespace Transclude

namespace Position

/-! ### The order of positions -/

/-- Positions by line, and within a line by column. -/
def key (p : Position) : Nat ×ₗ Nat := toLex (p.line, p.column)

theorem key_injective : Function.Injective key := by
  rintro ⟨line, column⟩ ⟨line', column'⟩ h
  simpa [key] using h

instance : PartialOrder Position := PartialOrder.lift key key_injective

theorem lt_iff {p q : Position} :
    p < q ↔ p.line < q.line ∨ p.line = q.line ∧ p.column < q.column :=
  Prod.Lex.toLex_lt_toLex

/-- The position behind a character that stands at the given position. -/
def advance (p : Position) (c : Char) : Position :=
  if c = '\n' then ⟨p.line + 1, 0⟩ else ⟨p.line, p.column + 1⟩

theorem lt_advance (p : Position) (c : Char) : p < p.advance c := by
  rw [lt_iff]
  unfold advance
  by_cases hc : c = '\n'
  · rw [if_pos hc]
    left
    exact Nat.lt_succ_self p.line
  · rw [if_neg hc]
    right
    exact ⟨rfl, Nat.lt_succ_self p.column⟩

theorem le_foldl_advance (p : Position) (chars : List Char) : p ≤ chars.foldl advance p := by
  induction chars generalizing p with
  | nil => exact le_refl p
  | cons c chars ih => exact (lt_advance p c).le.trans (ih (p.advance c))

theorem lt_foldl_advance (p : Position) {chars : List Char} (h : chars ≠ []) :
    p < chars.foldl advance p := by
  rcases chars with _ | ⟨c, chars⟩
  · exact absurd rfl h
  · exact (lt_advance p c).trans_le (le_foldl_advance (p.advance c) chars)

/-! ### Characters that fit -/

/-- The longest run of characters at the start that fits into `offset` bytes. -/
def fitting : List Char → Nat → List Char
  | [], _ => []
  | c :: rest, offset =>
    if c.utf8Size ≤ offset then c :: fitting rest (offset - c.utf8Size) else []

/-- The position of a byte offset in a text. -/
def ofOffset (text : String) (offset : Nat) : Position :=
  (fitting text.toList offset).foldl advance origin

theorem fitting_isPrefix (chars : List Char) (offset : Nat) : fitting chars offset <+: chars := by
  induction chars generalizing offset with
  | nil => exact List.nil_prefix
  | cons c chars ih =>
    by_cases hfits : c.utf8Size ≤ offset
    · simpa [fitting, hfits] using ih (offset - c.utf8Size)
    · simp [fitting, hfits]

theorem utf8Len_fitting_le (chars : List Char) (offset : Nat) :
    String.utf8Len (fitting chars offset) ≤ offset := by
  induction chars generalizing offset with
  | nil => simp [fitting]
  | cons c chars ih =>
    by_cases hfits : c.utf8Size ≤ offset
    · have hrest := ih (offset - c.utf8Size)
      simp only [fitting, hfits, if_true, String.utf8Len_cons]
      omega
    · simp [fitting, hfits]

/-- **No longer run of characters fits.** -/
theorem prefix_fitting {front chars : List Char} {offset : Nat} (h : front <+: chars)
    (hfits : String.utf8Len front ≤ offset) : front <+: fitting chars offset := by
  induction chars generalizing front offset with
  | nil =>
    rw [List.prefix_nil.mp h]
    exact List.nil_prefix
  | cons c chars ih =>
    rcases front with _ | ⟨d, front⟩
    · exact List.nil_prefix
    · obtain ⟨rfl, hfront⟩ := List.cons_prefix_cons.mp h
      rw [String.utf8Len_cons] at hfits
      have hd : d.utf8Size ≤ offset := by omega
      simp only [fitting, hd, if_true, List.cons_prefix_cons, true_and]
      apply ih hfront
      omega

theorem fitting_mono (chars : List Char) {offset offset' : Nat} (h : offset ≤ offset') :
    fitting chars offset <+: fitting chars offset' :=
  prefix_fitting (fitting_isPrefix chars offset) ((utf8Len_fitting_le chars offset).trans h)

theorem eq_nil_of_utf8Len {chars : List Char} (h : String.utf8Len chars = 0) : chars = [] := by
  rcases chars with _ | ⟨c, chars⟩
  · rfl
  · have hc := c.utf8Size_pos
    rw [String.utf8Len_cons] at h
    omega

/-- A run of characters fits exactly into the bytes that it takes. -/
theorem fitting_utf8Len {front chars : List Char} (h : front <+: chars) :
    fitting chars (String.utf8Len front) = front := by
  obtain ⟨more, hmore⟩ := prefix_fitting h le_rfl
  have hlen := utf8Len_fitting_le chars (String.utf8Len front)
  rw [← hmore, String.utf8Len_append] at hlen
  have hnil : more = [] := eq_nil_of_utf8Len (by omega)
  rw [← hmore, hnil, List.append_nil]

/-- An offset is a boundary if some characters at the start of the text take just so many
    bytes. -/
theorem isValid_iff {text : String} {offset : Nat} :
    String.Pos.Raw.IsValid text ⟨offset⟩ ↔
      ∃ front, front <+: text.toList ∧ String.utf8Len front = offset := by
  have hsize : ∀ s : String, s.rawEndPos = ⟨String.utf8Len s.toList⟩ := by
    intro s
    rw [← String.utf8ByteSize_ofList, String.ofList_toList]
    rfl
  rw [String.Pos.Raw.isValid_iff_exists_append]
  constructor
  · rintro ⟨s, t, rfl, hoffset⟩
    rw [hsize, String.Pos.Raw.mk.injEq] at hoffset
    exact ⟨s.toList, ⟨t.toList, by simp⟩, hoffset.symm⟩
  · rintro ⟨front, ⟨rest, hrest⟩, rfl⟩
    refine ⟨String.ofList front, String.ofList rest, ?_, ?_⟩
    · rw [← String.ofList_append, hrest, String.ofList_toList]
    · rw [hsize, String.toList_ofList]

/-! ### Order of offsets and of positions -/

theorem ofOffset_mono (text : String) {offset offset' : Nat} (h : offset ≤ offset') :
    ofOffset text offset ≤ ofOffset text offset' := by
  obtain ⟨more, hmore⟩ := fitting_mono text.toList h
  rw [ofOffset, ofOffset, ← hmore, List.foldl_append]
  exact le_foldl_advance _ more

theorem ofOffset_lt {text : String} {offset offset' : Nat} (h : offset < offset')
    (hoffset : String.Pos.Raw.IsValid text ⟨offset⟩)
    (hoffset' : String.Pos.Raw.IsValid text ⟨offset'⟩) :
    ofOffset text offset < ofOffset text offset' := by
  obtain ⟨front, hfront, rfl⟩ := isValid_iff.mp hoffset
  obtain ⟨front', hfront', rfl⟩ := isValid_iff.mp hoffset'
  obtain ⟨more, hmore⟩ := fitting_mono text.toList h.le
  rw [fitting_utf8Len hfront, fitting_utf8Len hfront'] at hmore
  have hne : more ≠ [] := by
    rintro rfl
    rw [List.append_nil] at hmore
    exact absurd (congrArg String.utf8Len hmore) h.ne
  rw [ofOffset, ofOffset, fitting_utf8Len hfront, fitting_utf8Len hfront', ← hmore,
    List.foldl_append]
  exact lt_foldl_advance _ hne

end Position

end Transclude

/-
  Transclude/Proofs/Text/LineIndex.lean
  =====================================
  **Looking a position up finds what its definition says, and stays within bounds.**

  The characters that fit below an offset end with a last line, perhaps an empty one,
  that follows a newline or the start of the text (`exists_lastLine`).  All that a
  lookup computes is read off that cut of the text:

    * the line starts up to the offset are those of the characters that fit, and the
      last of them is where the last line starts;
    * the last boundary up to the offset is where the characters that fit end;
    * the piece of text between these two is the last line.

  The same cut shows that the position is the one that `IsAt` defines by counting
  bytes, newlines and whole characters.
-/
import Transclude.Proofs.Text.Position
import Transclude.Text.Utf8
import Mathlib.Data.List.Induction
import Mathlib.Order.Bounds.Defs
import Mathlib.Tactic.SplitIfs

namespace Transclude

/-! ### What a position is -/

/-- The byte of a newline. -/
def newlineByte : UInt8 := 10

/-- The start of the text, and the ends of the newlines among the first `p` bytes. -/
def lineStarts (bytes : List UInt8) (p : Nat) : Set Nat :=
  {a | a = 0 ∨ ∃ i < p, bytes[i]? = some newlineByte ∧ a = i + 1}

/-- The boundaries between characters up to an offset. -/
def boundaries (text : String) (p : Nat) : Set Nat :=
  {b | String.Pos.Raw.IsValid text ⟨b⟩ ∧ b ≤ p}

/-- The position of an offset by its definition.  The line is the number of newline bytes below
    the offset; the column is the number of whole characters between the end of the last of
    them and the last boundary up to the offset. -/
structure Position.IsAt (position : Position) (text : String) (p : Nat) : Prop where
  line : position.line = ((Utf8.encode text).take p).count newlineByte
  column : ∃ before within behind, text.toList = before ++ within ++ behind
    ∧ IsGreatest (lineStarts (Utf8.encode text) p) (String.utf8Len before)
    ∧ IsGreatest (boundaries text p) (String.utf8Len (before ++ within))
    ∧ position.column = within.length

namespace Position

/-! ### The last line of what fits -/

/-- Walking over characters ends in the line behind the last newline, in the column that
    counts the characters behind it. -/
theorem exists_lastLine (chars : List Char) :
    ∃ before within, chars = before ++ within ∧ '\n' ∉ within
      ∧ (before = [] ∨ ∃ front, before = front ++ ['\n'])
      ∧ chars.foldl advance origin = ⟨chars.count '\n', within.length⟩ := by
  induction chars using List.reverseRecOn with
  | nil => exact ⟨[], [], rfl, List.not_mem_nil, .inl rfl, rfl⟩
  | append_singleton chars c ih =>
    obtain ⟨before, within, hchars, hwithin, hbefore, hposition⟩ := ih
    by_cases hc : c = '\n'
    · subst hc
      refine ⟨chars ++ ['\n'], [], by simp, List.not_mem_nil, .inr ⟨chars, rfl⟩, ?_⟩
      simp [hposition, advance]
    · refine ⟨before, within ++ [c], by simp [hchars], ?_, hbefore, ?_⟩
      · simp [hwithin, Ne.symm hc]
      · simp [hposition, advance, hc]

/-- A text cut where the last line that fits below an offset starts and where it ends. -/
structure Cut (text : String) (p : Nat) (before within behind : List Char) : Prop where
  text_eq : text.toList = before ++ within ++ behind
  fits : fitting text.toList p = before ++ within
  ends : before = [] ∨ ∃ front, before = front ++ ['\n']
  plain : '\n' ∉ within

theorem exists_cut (text : String) (p : Nat) :
    ∃ before within behind, Cut text p before within behind
      ∧ ofOffset text p = ⟨before.count '\n', within.length⟩ := by
  obtain ⟨before, within, hfits, hplain, hends, hposition⟩ :=
    exists_lastLine (fitting text.toList p)
  obtain ⟨behind, hbehind⟩ := fitting_isPrefix text.toList p
  refine ⟨before, within, behind, ⟨?_, hfits, hends, hplain⟩, ?_⟩
  · rw [← hfits, hbehind]
  · rw [ofOffset, hposition, hfits, List.count_append, List.count_eq_zero.mpr hplain]
    rfl

/-! ### Newlines among bytes -/

theorem newlineByte_not_mem {c : Char} (h : c ≠ '\n') :
    newlineByte ∉ String.utf8EncodeChar c := by
  have hc : c.val.toNat ≠ 10 := by
    intro hval
    apply h
    apply Char.ext
    exact UInt32.toNat_inj.mp hval
  unfold String.utf8EncodeChar newlineByte
  simp only
  split_ifs with hone htwo hthree
  all_goals
    simp only [List.mem_cons, List.not_mem_nil, or_false, ← UInt8.toNat_inj, UInt8.toNat_ofNat',
      UInt8.reduceToNat]
    omega

theorem count_take_char (c : Char) {offset : Nat} (h : offset < c.utf8Size) :
    ((String.utf8EncodeChar c).take offset).count newlineByte = 0 := by
  rw [List.count_eq_zero]
  by_cases hc : c = '\n'
  · subst hc
    rw [show offset = 0 from Nat.lt_one_iff.mp h]
    exact List.not_mem_nil
  · intro hmem
    exact newlineByte_not_mem hc (List.mem_of_mem_take hmem)

theorem count_char (c : Char) :
    (String.utf8EncodeChar c).count newlineByte = [c].count '\n' := by
  by_cases hc : c = '\n'
  · subst hc
    rfl
  · have hchar : '\n' ∉ [c] := by simp [Ne.symm hc]
    rw [List.count_eq_zero.mpr (newlineByte_not_mem hc), List.count_eq_zero.mpr hchar]

theorem count_take_encode (chars : List Char) (offset : Nat) :
    ((chars.flatMap String.utf8EncodeChar).take offset).count newlineByte =
      (fitting chars offset).count '\n' := by
  induction chars generalizing offset with
  | nil => simp [fitting]
  | cons c chars ih =>
    rw [List.flatMap_cons, List.take_append, String.length_utf8EncodeChar, List.count_append]
    by_cases hfits : c.utf8Size ≤ offset
    · have htake : (String.utf8EncodeChar c).take offset = String.utf8EncodeChar c := by
        apply List.take_of_length_le
        rw [String.length_utf8EncodeChar]
        exact hfits
      simp only [fitting, hfits, if_true]
      rw [htake, ih, count_char, ← List.count_append, List.singleton_append]
    · have hzero : offset - c.utf8Size = 0 := by omega
      simp only [fitting, hfits, if_false]
      rw [count_take_char c (by omega), hzero, List.take_zero, List.count_nil, List.count_nil]

theorem length_encode (chars : List Char) :
    (chars.flatMap String.utf8EncodeChar).length = String.utf8Len chars := by
  induction chars with
  | nil => rfl
  | cons c chars ih =>
    rw [List.flatMap_cons, List.length_append, String.length_utf8EncodeChar, ih,
      String.utf8Len_cons, Nat.add_comm]

namespace Cut

variable {text : String} {p : Nat} {before within behind : List Char}

theorem utf8Len_le (h : Cut text p before within behind) :
    String.utf8Len (before ++ within) ≤ p := by
  rw [← h.fits]
  exact utf8Len_fitting_le text.toList p

theorem before_isPrefix (h : Cut text p before within behind) : before <+: text.toList := by
  rw [h.text_eq, List.append_assoc]
  exact List.prefix_append before _

theorem stop_isPrefix (h : Cut text p before within behind) : before ++ within <+: text.toList := by
  rw [h.text_eq]
  exact List.prefix_append _ _

theorem count_take (h : Cut text p before within behind) :
    ((Utf8.encode text).take p).count newlineByte = before.count '\n' := by
  rw [Utf8.encode, count_take_encode, h.fits, List.count_append, List.count_eq_zero.mpr h.plain,
    Nat.add_zero]

/-- No newline byte is left between the start of the last line and the offset. -/
theorem newlineByte_not_mem_line (h : Cut text p before within behind) :
    newlineByte ∉
      ((Utf8.encode text).drop (String.utf8Len before)).take (p - String.utf8Len before) := by
  have hle := h.utf8Len_le
  rw [String.utf8Len_append] at hle
  have hstart : ((Utf8.encode text).take (String.utf8Len before)).count newlineByte =
      before.count '\n' := by
    rw [Utf8.encode, count_take_encode, fitting_utf8Len h.before_isPrefix]
  have hall := h.count_take
  rw [show p = String.utf8Len before + (p - String.utf8Len before) by omega, List.take_add,
    List.count_append, hstart] at hall
  rw [← List.count_eq_zero]
  omega

theorem start_mem (h : Cut text p before within behind) :
    String.utf8Len before ∈ lineStarts (Utf8.encode text) p := by
  have hle := h.utf8Len_le
  rcases h.ends with rfl | ⟨front, rfl⟩
  · left
    rfl
  · right
    have hnewline : String.utf8Len (front ++ ['\n']) = String.utf8Len front + 1 := by
      rw [String.utf8Len_append]
      rfl
    refine ⟨String.utf8Len front, ?_, ?_, hnewline⟩
    · rw [String.utf8Len_append, hnewline] at hle
      omega
    · rw [Utf8.encode, h.text_eq, List.append_assoc, List.append_assoc, List.flatMap_append,
        List.getElem?_append_right (length_encode front).le, length_encode, Nat.sub_self]
      rfl

/-- **The last line starts behind the last newline.** -/
theorem isGreatest_start (h : Cut text p before within behind) :
    IsGreatest (lineStarts (Utf8.encode text) p) (String.utf8Len before) := by
  refine ⟨h.start_mem, ?_⟩
  rintro a (rfl | ⟨i, hi, hbyte, rfl⟩)
  · exact Nat.zero_le _
  · by_contra hlater
    apply h.newlineByte_not_mem_line
    have hplace : (((Utf8.encode text).drop (String.utf8Len before)).take
        (p - String.utf8Len before))[i - String.utf8Len before]? = some newlineByte := by
      rw [List.getElem?_take_of_lt (by omega), List.getElem?_drop, ← hbyte]
      congr 1
      omega
    exact List.mem_of_getElem? hplace

/-- **What fits ends at the last boundary.** -/
theorem isGreatest_stop (h : Cut text p before within behind) :
    IsGreatest (boundaries text p) (String.utf8Len (before ++ within)) := by
  constructor
  · exact ⟨isValid_iff.mpr ⟨before ++ within, h.stop_isPrefix, rfl⟩, h.utf8Len_le⟩
  · rintro b ⟨hvalid, hb⟩
    obtain ⟨front, hfront, rfl⟩ := isValid_iff.mp hvalid
    obtain ⟨more, hmore⟩ := prefix_fitting hfront hb
    rw [h.fits] at hmore
    rw [← hmore, String.utf8Len_append]
    exact Nat.le_add_right _ _

end Cut

/-- **The position of an offset is the one that counting defines.** -/
theorem isAt_ofOffset (text : String) (p : Nat) : (ofOffset text p).IsAt text p := by
  obtain ⟨before, within, behind, hcut, hposition⟩ := exists_cut text p
  rw [hposition]
  exact ⟨hcut.count_take.symm, before, within, behind, hcut.text_eq, hcut.isGreatest_start,
    hcut.isGreatest_stop, rfl⟩

theorem fitting_min (chars : List Char) (offset : Nat) :
    fitting chars (min offset (String.utf8Len chars)) = fitting chars offset := by
  rcases Nat.le_total offset (String.utf8Len chars) with hle | hle
  · rw [Nat.min_eq_left hle]
  · rw [Nat.min_eq_right hle, fitting_utf8Len List.prefix_rfl]
    exact ((prefix_fitting List.prefix_rfl hle).eq_of_length_le
      (fitting_isPrefix chars offset).length_le)

/-- An offset past the end has the position of the end. -/
theorem ofOffset_min (text : String) (offset : Nat) :
    ofOffset text (min offset text.utf8ByteSize) = ofOffset text offset := by
  have hsize : text.utf8ByteSize = String.utf8Len text.toList := by
    rw [← String.utf8ByteSize_ofList, String.ofList_toList]
  rw [ofOffset, ofOffset, hsize, fitting_min]

theorem isAt_ofOffset_min (text : String) (offset : Nat) :
    (ofOffset text offset).IsAt text (min offset text.utf8ByteSize) := by
  rw [← ofOffset_min]
  exact isAt_ofOffset text _

end Position

namespace LineIndex

open Position

/-! ### Line starts -/

theorem newlines_append (offset : Nat) (front back : List Char) :
    newlines offset (front ++ back) =
      newlines offset front ++ newlines (offset + String.utf8Len front) back := by
  induction front generalizing offset with
  | nil => rfl
  | cons c front ih =>
    have hoffset : offset + c.utf8Size + String.utf8Len front =
        offset + String.utf8Len (c :: front) := by
      rw [String.utf8Len_cons]
      omega
    by_cases hc : c = '\n'
    · simp only [List.cons_append, newlines, if_pos hc, ih, hoffset]
    · simp only [List.cons_append, newlines, if_neg hc, ih, hoffset]

theorem length_newlines (offset : Nat) (chars : List Char) :
    (newlines offset chars).length = chars.count '\n' := by
  induction chars generalizing offset with
  | nil => rfl
  | cons c chars ih =>
    by_cases hc : c = '\n'
    · simp [newlines, hc, ih]
    · simp [newlines, hc, ih]

theorem newlines_plain (offset : Nat) {chars : List Char} (h : '\n' ∉ chars) :
    newlines offset chars = [] := by
  rw [← List.length_eq_zero_iff, length_newlines, List.count_eq_zero]
  exact h

theorem lt_of_mem_newlines {offset i : Nat} {chars : List Char} (h : i ∈ newlines offset chars) :
    offset ≤ i ∧ i < offset + String.utf8Len chars := by
  induction chars generalizing offset with
  | nil => simp [newlines] at h
  | cons c chars ih =>
    have hc := c.utf8Size_pos
    rw [newlines] at h
    rw [String.utf8Len_cons]
    have hlater : i ∈ newlines (offset + c.utf8Size) chars →
        offset ≤ i ∧ i < offset + (String.utf8Len chars + c.utf8Size) := by
      intro hi
      obtain ⟨hle, hlt⟩ := ih hi
      omega
    split at h
    · rcases List.mem_cons.mp h with rfl | hi
      · omega
      · exact hlater hi
    · exact hlater h

theorem lt_of_mem_text {text : String} (h : text.utf8ByteSize < 2 ^ 32) {i : Nat}
    (hi : i ∈ newlines 0 text.toList) : i + 1 < 2 ^ 32 := by
  have hlt := (lt_of_mem_newlines hi).2
  rw [← String.utf8ByteSize_ofList, String.ofList_toList] at hlt
  omega

theorem mapM_eq_some {α β : Type} {f : α → Option β} {g : α → β} {xs : List α}
    (h : ∀ x ∈ xs, f x = some (g x)) : xs.mapM f = some (xs.map g) := by
  induction xs with
  | nil => rfl
  | cons x xs ih =>
    rw [List.forall_mem_cons] at h
    simp [List.mapM_cons, h.1, ih h.2]

/-- The line start behind a newline, as a word. -/
def word (i : Nat) : UInt32 := UInt32.ofNat (i + 1)

theorem toNat_word {i : Nat} (h : i + 1 < 2 ^ 32) : (word i).toNat = i + 1 := by
  rw [word, UInt32.toNat_ofNat']
  omega

theorem succ?_ofNat {i : Nat} (h : i + 1 < 2 ^ 32) : succ? (UInt32.ofNat i) = some (word i) := by
  have hlast : UInt32.ofNat i ≠ 4294967295 := by
    intro heq
    have hnat := congrArg UInt32.toNat heq
    rw [UInt32.toNat_ofNat'] at hnat
    change i % 2 ^ 32 = 4294967295 at hnat
    omega
  rw [succ?, if_neg hlast, word, UInt32.ofNat_add]
  rfl

/-- **In a text of less than 2³² bytes every line start is a word.** -/
theorem starts?_eq {text : String} (h : text.utf8ByteSize < 2 ^ 32) :
    starts? text = some (0 :: (newlines 0 text.toList).map word).toArray := by
  have hwords : ∀ i ∈ newlines 0 text.toList, succ? (UInt32.ofNat i) = some (word i) := by
    intro i hi
    exact succ?_ofNat (lt_of_mem_text h hi)
  rw [starts?, mapM_eq_some hwords]
  rfl

/-! ### Halving -/

/-- The window that is left always holds the place where `p` stops to hold. -/
theorem narrow_eq {α : Type} {p : α → Bool} {xs : Array α} {base size k : Nat}
    {h : base + size ≤ xs.size} (hbase : base ≤ k) (hsize : k ≤ base + size)
    (hp : ∀ i (hi : i < xs.size), p xs[i] = true ↔ i < k) :
    narrow p xs base size h = k := by
  fun_induction narrow p xs base size h with
  | case1 base size h many hmid ih =>
    have hlt := (hp _ _).mp hmid
    apply ih
    · omega
    · omega
  | case2 base size h many hmid ih =>
    have hlt := mt (hp _ _).mpr hmid
    apply ih
    · exact hbase
    · omega
  | case3 base h one hlast =>
    have hlt := (hp _ _).mp hlast
    omega
  | case4 base h one hlast =>
    have hlt := mt (hp _ _).mpr hlast
    omega
  | case5 base size h many one => omega

/-- **Halving finds the end of the elements of which `p` holds.** -/
theorem partitionPoint_append {α : Type} {p : α → Bool} {front back : List α}
    (hfront : ∀ a ∈ front, p a = true) (hback : ∀ a ∈ back, p a = false) :
    partitionPoint p (front ++ back).toArray = front.length := by
  apply narrow_eq
  · exact Nat.zero_le _
  · simp
  · intro i hi
    rw [List.getElem_toArray]
    by_cases hlt : i < front.length
    · simp [List.getElem_append_left hlt, hfront _ (List.getElem_mem hlt), hlt]
    · rw [List.getElem_append_right (Nat.le_of_not_lt hlt), hback _ (List.getElem_mem _)]
      simp [hlt]

/-! ### Boundaries -/

theorem isBoundary_iff {text : String} {offset : Nat} :
    isBoundary text offset = true ↔ String.Pos.Raw.IsValid text ⟨offset⟩ :=
  String.Pos.Raw.isValid_eq_true_iff

/-- **The search for a boundary ends at the last one.** -/
theorem floor?_eq_some {text : String} {p b : Nat} (h : IsGreatest (boundaries text p) b) :
    floor? text p = some b := by
  obtain ⟨⟨hvalid, hle⟩, hgreatest⟩ := h
  induction p with
  | zero =>
    obtain rfl : b = 0 := Nat.le_zero.mp hle
    rw [floor?, if_pos (isBoundary_iff.mpr hvalid)]
  | succ p ih =>
    by_cases hboundary : isBoundary text (p + 1) = true
    · have hlast := hgreatest ⟨isBoundary_iff.mp hboundary, le_rfl⟩
      rw [floor?, if_pos hboundary, Nat.le_antisymm hle hlast]
    · have hne : b ≠ p + 1 := by
        rintro rfl
        exact hboundary (isBoundary_iff.mpr hvalid)
      rw [floor?, if_neg hboundary]
      apply ih
      · rintro c ⟨hc, hcp⟩
        exact hgreatest ⟨hc, hcp.trans (Nat.le_succ p)⟩
      · omega

theorem slice?_eq_some {text : String} {before within behind : List Char}
    (h : text.toList = before ++ within ++ behind) :
    slice? text (String.utf8Len before) (String.utf8Len (before ++ within)) =
      some (String.ofList within) := by
  have hstart : isBoundary text (String.utf8Len before) = true := by
    rw [isBoundary_iff, isValid_iff]
    exact ⟨before, by simp [h], rfl⟩
  have hstop : isBoundary text (String.utf8Len (before ++ within)) = true := by
    rw [isBoundary_iff, isValid_iff]
    exact ⟨before ++ within, by simp [h], rfl⟩
  have hle : String.utf8Len before ≤ String.utf8Len (before ++ within) := by simp
  have htext : text = String.ofList (before ++ within ++ behind) := by
    rw [← h, String.ofList_toList]
  rw [slice?, if_pos ⟨hle, hstart, hstop⟩, String.utf8Len_append, htext,
    String.extract_of_valid]

/-! ### Lookup -/

section Lookup

variable {text : String} {p : Nat} {before within behind : List Char}

/-- Newlines behind what fits are not below the offset. -/
theorem le_of_mem_newlines_behind (h : Cut text p before within behind) {i : Nat}
    (hi : i ∈ newlines (String.utf8Len (before ++ within)) behind) : p ≤ i := by
  rcases behind with _ | ⟨c, rest⟩
  · simp [newlines] at hi
  · have hover : p < String.utf8Len (before ++ within) + c.utf8Size := by
      by_contra hfits
      have hprefix : before ++ within ++ [c] <+: text.toList := by simp [h.text_eq]
      have hlonger : before ++ within ++ [c] <+: fitting text.toList p := by
        apply prefix_fitting hprefix
        rw [String.utf8Len_append, String.utf8Len_cons, String.utf8Len_nil]
        omega
      rw [h.fits] at hlonger
      simpa using hlonger.length_le
    rw [newlines] at hi
    split at hi
    · next hc =>
      subst hc
      have hsize : '\n'.utf8Size = 1 := rfl
      rcases List.mem_cons.mp hi with rfl | hi
      · omega
      · have hlater := (lt_of_mem_newlines hi).1
        omega
    · have hlater := (lt_of_mem_newlines hi).1
      omega

theorem newlines_cut (h : Cut text p before within behind) :
    newlines 0 text.toList =
      newlines 0 before ++ newlines (String.utf8Len (before ++ within)) behind := by
  rw [h.text_eq, newlines_append, newlines_append, newlines_plain _ h.plain, List.append_nil,
    Nat.zero_add]

/-- **The line that is found is that of the cut.** -/
theorem partitionPoint_starts (hsize : text.utf8ByteSize < 2 ^ 32) {offset : UInt32}
    (h : Cut text offset.toNat before within behind) :
    partitionPoint (fun start => decide (start ≤ offset))
      (0 :: (newlines 0 text.toList).map word).toArray = before.count '\n' + 1 := by
  have hword : ∀ i ∈ newlines 0 text.toList, (word i).toNat = i + 1 := by
    intro i hi
    exact toNat_word (lt_of_mem_text hsize hi)
  rw [newlines_cut h] at hword
  rw [newlines_cut h, List.map_append, ← List.cons_append, partitionPoint_append,
    List.length_cons, List.length_map, length_newlines]
  · intro a ha
    rcases List.mem_cons.mp ha with rfl | ha
    · simp
    · obtain ⟨i, hi, rfl⟩ := List.mem_map.mp ha
      have hlt := (lt_of_mem_newlines hi).2
      have hle := h.utf8Len_le
      rw [String.utf8Len_append] at hle
      rw [decide_eq_true_eq, UInt32.le_iff_toNat_le, hword i (List.mem_append_left _ hi)]
      omega
  · intro a ha
    obtain ⟨i, hi, rfl⟩ := List.mem_map.mp ha
    have hlater := le_of_mem_newlines_behind h hi
    rw [decide_eq_false_iff_not, UInt32.le_iff_toNat_le, hword i (List.mem_append_right _ hi)]
    omega

/-- **The index has that line, and it starts where the last line of the cut does.** -/
theorem exists_start (hsize : text.utf8ByteSize < 2 ^ 32)
    (h : Cut text p before within behind) :
    ∃ start, (0 :: (newlines 0 text.toList).map word).toArray[before.count '\n']? = some start
      ∧ start.toNat = String.utf8Len before := by
  have hcut := newlines_cut h
  rcases h.ends with rfl | ⟨front, rfl⟩
  · exact ⟨0, rfl, rfl⟩
  · have hfront : newlines 0 (front ++ ['\n']) = newlines 0 front ++ [String.utf8Len front] := by
      rw [newlines_append, Nat.zero_add]
      rfl
    have hmem : String.utf8Len front ∈ newlines 0 text.toList := by simp [hcut, hfront]
    refine ⟨word (String.utf8Len front), ?_, ?_⟩
    · rw [hcut, ← length_newlines 0 (front ++ ['\n']), hfront]
      simp
    · rw [toNat_word (lt_of_mem_text hsize hmem), String.utf8Len_append]
      rfl

theorem toNat_min_end (hsize : text.utf8ByteSize < 2 ^ 32) (offset : UInt32) :
    (min offset (UInt32.ofNat text.utf8ByteSize)).toNat = min offset.toNat text.utf8ByteSize := by
  have hend : (UInt32.ofNat text.utf8ByteSize).toNat = text.utf8ByteSize := by
    rw [UInt32.toNat_ofNat']
    omega
  rw [UInt32.min_def, apply_ite UInt32.toNat, hend, Nat.min_def]
  simp only [UInt32.le_iff_toNat_le, hend]

/-- **A lookup in a text of less than 2³² bytes has a result, which is the position of the
    offset.** -/
theorem lookup?_eq_some (hsize : text.utf8ByteSize < 2 ^ 32) (offset : UInt32) :
    lookup? text offset = some (ofOffset text offset.toNat) := by
  obtain ⟨before, within, behind, hcut, hposition⟩ :=
    exists_cut text (min offset.toNat text.utf8ByteSize)
  rw [ofOffset_min] at hposition
  rw [← toNat_min_end hsize] at hcut
  obtain ⟨start, hstart, hlen⟩ := exists_start hsize hcut
  have hline := partitionPoint_starts hsize hcut
  have hstop := floor?_eq_some hcut.isGreatest_stop
  have hpiece := slice?_eq_some hcut.text_eq
  rw [hposition]
  simp only [lookup?, starts?_eq hsize, Option.bind_eq_bind, Option.bind_some, hline,
    Nat.add_sub_cancel, hstart, hstop, hlen, hpiece]
  simp

end Lookup

end LineIndex

end Transclude

/-
  Transclude/Proofs/Text/IllFormed.lean
  =====================================
  **What is read for bytes that are no text.**

  Bytes are read by a rule that does not mention the machine (`Reads`): where a
  character stands, it is taken; where none does, the longest beginning of a character
  is given up, or one byte if no character begins with it, and U+FFFD is read for what
  has been given up.  The rule fits every byte string in exactly one way, and the
  machine follows it (`reads_iff`).

  The machine holds a character exactly as long as some character begins with the
  bytes read: whatever continues what it holds leads to the encoding of a character
  (`Held`), and what it holds can always be continued (`exists_continues`).
-/
import Transclude.Proofs.Text.Utf8
import Mathlib.Data.List.Induction

namespace Transclude.Utf8

/-! ### The rule -/

/-- Some of the bytes of a character, but not all. -/
def Begun (bytes : List UInt8) : Prop :=
  bytes ≠ [] ∧ ∃ c rest, rest ≠ [] ∧ String.utf8EncodeChar c = bytes ++ rest

/-- A piece of bytes in front of others at which no character stands: the longest beginning of
    a character, or a byte that begins none. -/
structure IllFormed (piece rest : List UInt8) : Prop where
  noCharacter : ∀ c, ¬ String.utf8EncodeChar c <+: piece ++ rest
  maximal : (Begun piece ∧ ∀ b, rest.head? = some b → ¬ Begun (piece ++ [b])) ∨
    ∃ b, piece = [b] ∧ ¬ Begun [b]

/-- The text that is read for bytes. -/
inductive Reads : List UInt8 → List Char → Prop where
  | nil : Reads [] []
  | character (c : Char) {rest : List UInt8} {text : List Char} :
      Reads rest text → Reads (String.utf8EncodeChar c ++ rest) (c :: text)
  | illFormed {piece rest : List UInt8} {text : List Char} :
      IllFormed piece rest → Reads rest text → Reads (piece ++ rest) ('�' :: text)

/-! ### The rule fits all bytes -/

theorem exists_longest {front : List UInt8} (h : Begun front) (back : List UInt8) :
    ∃ piece rest, front ++ back = piece ++ rest ∧ Begun piece
      ∧ ∀ b, rest.head? = some b → ¬ Begun (piece ++ [b]) := by
  induction back generalizing front with
  | nil => exact ⟨front, [], rfl, h, by simp⟩
  | cons b back ih =>
    by_cases hmore : Begun (front ++ [b])
    · obtain ⟨piece, rest, heq, hlongest⟩ := ih hmore
      exact ⟨piece, rest, by rw [← heq, List.append_assoc, List.singleton_append], hlongest⟩
    · refine ⟨front, b :: back, rfl, h, ?_⟩
      intro next hnext
      obtain rfl : b = next := Option.some.inj hnext
      exact hmore

theorem exists_illFormed (b : UInt8) (bytes : List UInt8)
    (hnone : ∀ c, ¬ String.utf8EncodeChar c <+: b :: bytes) :
    ∃ piece rest, b :: bytes = piece ++ rest ∧ piece ≠ [] ∧ IllFormed piece rest := by
  by_cases hb : Begun [b]
  · obtain ⟨piece, rest, heq, hpiece, hlongest⟩ := exists_longest hb bytes
    rw [List.singleton_append] at heq
    exact ⟨piece, rest, heq, hpiece.1, by rwa [heq] at hnone, .inl ⟨hpiece, hlongest⟩⟩
  · exact ⟨[b], bytes, rfl, List.cons_ne_nil _ _, hnone, .inr ⟨b, rfl, hb⟩⟩

theorem exists_reads (bytes : List UInt8) : ∃ text, Reads bytes text := by
  -- each step takes something away, so the induction is on the number of bytes left
  induction bytes using (measure List.length).wf.induction with
  | h bytes ih =>
    rcases bytes with _ | ⟨b, bytes⟩
    · exact ⟨[], .nil⟩
    · by_cases hc : ∃ c, String.utf8EncodeChar c <+: b :: bytes
      · obtain ⟨c, rest, heq⟩ := hc
        have hshorter : rest.length < (b :: bytes).length := by
          rw [← heq, List.length_append, String.length_utf8EncodeChar]
          exact Nat.lt_add_of_pos_left c.utf8Size_pos
        obtain ⟨text, htext⟩ := ih rest hshorter
        rw [← heq]
        exact ⟨c :: text, .character c htext⟩
      · obtain ⟨piece, rest, heq, hne, hpiece⟩ := exists_illFormed b bytes (not_exists.mp hc)
        have hshorter : rest.length < (b :: bytes).length := by
          rw [heq, List.length_append]
          exact Nat.lt_add_of_pos_left (List.length_pos_iff.mpr hne)
        obtain ⟨text, htext⟩ := ih rest hshorter
        rw [heq]
        exact ⟨'�' :: text, .illFormed hpiece htext⟩

/-! ### What continues a character in hand -/

/-- Bytes that complete the character in hand, and what it is then. -/
inductive Continues : Pending → List UInt8 → Char → Prop where
  | last {p : Pending} {b : UInt8} : p.low ≤ b → b ≤ p.high → p.more = 0 →
      Continues p [b] (Char.ofNat (p.bits * 64 + (b.toNat - 0x80)))
  | next {p : Pending} {b : UInt8} {more : Nat} {tail : List UInt8} {c : Char} :
      p.low ≤ b → b ≤ p.high → p.more = more + 1 →
      Continues ⟨p.bits * 64 + (b.toNat - 0x80), 0x80, 0xBF, more⟩ tail c →
      Continues p (b :: tail) c

theorem exists_continues (p : Pending) (h : p.low ≤ p.high) : ∃ tail c, Continues p tail c := by
  obtain ⟨bits, low, high, more⟩ := p
  induction more generalizing bits low high with
  | zero => exact ⟨_, _, .last (UInt8.le_refl low) h rfl⟩
  | succ more ih =>
    have hrange : (0x80 : UInt8) ≤ 0xBF := by decide
    obtain ⟨tail, c, htail⟩ := ih (bits * 64 + (low.toNat - 0x80)) 0x80 0xBF hrange
    exact ⟨_, _, .next (UInt8.le_refl low) h rfl htail⟩

theorem Continues.ne_nil {p : Pending} {tail : List UInt8} {c : Char} (h : Continues p tail c) :
    tail ≠ [] := by
  rcases h with _ | _ <;> exact List.cons_ne_nil _ _

/-- What is in hand after some bytes: it can be continued, and all that continues it completes
    the encoding of a character. -/
structure Held (bytes : List UInt8) (p : Pending) : Prop where
  ne_nil : bytes ≠ []
  open_range : p.low ≤ p.high
  encodes : ∀ tail c, Continues p tail c → String.utf8EncodeChar c = bytes ++ tail

theorem Held.begun {bytes : List UInt8} {p : Pending} (h : Held bytes p) : Begun bytes := by
  obtain ⟨tail, c, htail⟩ := exists_continues p h.open_range
  exact ⟨h.ne_nil, c, tail, htail.ne_nil, h.encodes tail c htail⟩

theorem Held.next {bytes : List UInt8} {p : Pending} (h : Held bytes p) {b : UInt8} {more : Nat}
    (hlow : p.low ≤ b) (hhigh : b ≤ p.high) (hmore : p.more = more + 1) :
    Held (bytes ++ [b]) ⟨p.bits * 64 + (b.toNat - 0x80), 0x80, 0xBF, more⟩ where
  ne_nil := by simp
  open_range := show (0x80 : UInt8) ≤ 0xBF by decide
  encodes tail c htail := by
    rw [List.append_assoc, List.singleton_append]
    exact h.encodes _ c (.next hlow hhigh hmore htail)

/-! ### First bytes -/

theorem encode_ofNat {v : Nat} (h : v < 0xD800 ∨ 0xDFFF < v ∧ v < 0x110000) :
    String.utf8EncodeChar (Char.ofNat v) =
      if v ≤ 0x7F then [UInt8.ofNat v]
      else if v ≤ 0x7FF then [UInt8.ofNat (v / 64 % 32 + 0xC0), UInt8.ofNat (v % 64 + 0x80)]
      else if v ≤ 0xFFFF then
        [UInt8.ofNat (v / 4096 % 16 + 0xE0), UInt8.ofNat (v / 64 % 64 + 0x80),
          UInt8.ofNat (v % 64 + 0x80)]
      else
        [UInt8.ofNat (v / 262144 % 8 + 0xF0), UInt8.ofNat (v / 4096 % 64 + 0x80),
          UInt8.ofNat (v / 64 % 64 + 0x80), UInt8.ofNat (v % 64 + 0x80)] := by
  have hvalid : v.isValidChar := h
  have hvalue : (Char.ofNat v).val.toNat = v := by
    rw [Char.ofNat, dif_pos hvalid]
    rfl
  unfold String.utf8EncodeChar
  simp only [hvalue]

theorem ofNat_eq {n : Nat} {b : UInt8} (h : n = b.toNat) : UInt8.ofNat n = b := by
  rw [h, UInt8.ofNat_toNat]

theorem encode_two {a b : UInt8} (ha : 0xC2 ≤ a.toNat) (ha' : a.toNat < 0xE0)
    (hb : 0x80 ≤ b.toNat) (hb' : b.toNat ≤ 0xBF) :
    String.utf8EncodeChar (Char.ofNat ((a.toNat - 0xC0) * 64 + (b.toNat - 0x80))) = [a, b] := by
  rw [encode_ofNat (by omega), if_neg (by omega), if_pos (by omega), ofNat_eq (b := a) (by omega),
    ofNat_eq (b := b) (by omega)]

theorem encode_three {a b c : UInt8} (ha : 0xE0 ≤ a.toNat) (ha' : a.toNat < 0xF0)
    (hb : 0x80 ≤ b.toNat) (hb' : b.toNat ≤ 0xBF) (hzero : a.toNat = 0xE0 → 0xA0 ≤ b.toNat)
    (hsurrogate : a.toNat = 0xED → b.toNat ≤ 0x9F) (hc : 0x80 ≤ c.toNat) (hc' : c.toNat ≤ 0xBF) :
    String.utf8EncodeChar (Char.ofNat
      (((a.toNat - 0xE0) * 64 + (b.toNat - 0x80)) * 64 + (c.toNat - 0x80))) = [a, b, c] := by
  rw [encode_ofNat (by omega), if_neg (by omega), if_neg (by omega), if_pos (by omega),
    ofNat_eq (b := a) (by omega), ofNat_eq (b := b) (by omega), ofNat_eq (b := c) (by omega)]

theorem encode_four {a b c d : UInt8} (ha : 0xF0 ≤ a.toNat) (ha' : a.toNat < 0xF5)
    (hb : 0x80 ≤ b.toNat) (hb' : b.toNat ≤ 0xBF) (hzero : a.toNat = 0xF0 → 0x90 ≤ b.toNat)
    (hlast : a.toNat = 0xF4 → b.toNat ≤ 0x8F) (hc : 0x80 ≤ c.toNat) (hc' : c.toNat ≤ 0xBF)
    (hd : 0x80 ≤ d.toNat) (hd' : d.toNat ≤ 0xBF) :
    String.utf8EncodeChar (Char.ofNat
      ((((a.toNat - 0xF0) * 64 + (b.toNat - 0x80)) * 64 + (c.toNat - 0x80)) * 64
        + (d.toNat - 0x80))) = [a, b, c, d] := by
  rw [encode_ofNat (by omega), if_neg (by omega), if_neg (by omega), if_neg (by omega),
    ofNat_eq (b := a) (by omega), ofNat_eq (b := b) (by omega), ofNat_eq (b := c) (by omega),
    ofNat_eq (b := d) (by omega)]

theorem Continues.one {bits : Nat} {low high : UInt8} {tail : List UInt8} {c : Char}
    (h : Continues ⟨bits, low, high, 0⟩ tail c) :
    ∃ b, tail = [b] ∧ c = Char.ofNat (bits * 64 + (b.toNat - 0x80))
      ∧ low.toNat ≤ b.toNat ∧ b.toNat ≤ high.toNat := by
  rcases h with ⟨hlow, hhigh, -⟩ | ⟨-, -, hmore, -⟩
  · exact ⟨_, rfl, rfl, UInt8.le_iff_toNat_le.mp hlow, UInt8.le_iff_toNat_le.mp hhigh⟩
  · cases hmore

theorem Continues.more {bits more : Nat} {low high : UInt8} {tail : List UInt8} {c : Char}
    (h : Continues ⟨bits, low, high, more + 1⟩ tail c) :
    ∃ b rest, tail = b :: rest ∧ low.toNat ≤ b.toNat ∧ b.toNat ≤ high.toNat
      ∧ Continues ⟨bits * 64 + (b.toNat - 0x80), 0x80, 0xBF, more⟩ rest c := by
  rcases h with ⟨-, -, hmore⟩ | ⟨hlow, hhigh, hmore, hrest⟩
  · cases hmore
  · cases hmore
    exact ⟨_, _, rfl, UInt8.le_iff_toNat_le.mp hlow, UInt8.le_iff_toNat_le.mp hhigh, hrest⟩

theorem held_two {a : UInt8} (ha : 0xC2 ≤ a.toNat) (ha' : a.toNat < 0xE0) :
    Held [a] ⟨a.toNat - 0xC0, 0x80, 0xBF, 0⟩ := by
  refine ⟨List.cons_ne_nil _ _, show (0x80 : UInt8) ≤ 0xBF by decide, ?_⟩
  intro tail c htail
  obtain ⟨b, rfl, heq, hb, hb'⟩ := htail.one
  simp only [UInt8.reduceToNat] at hb hb'
  rw [heq, List.singleton_append]
  exact encode_two ha ha' hb hb'

theorem held_three {a low high : UInt8} (ha : 0xE0 ≤ a.toNat) (ha' : a.toNat < 0xF0)
    (hlow : low.toNat = if a.toNat = 0xE0 then 0xA0 else 0x80)
    (hhigh : high.toNat = if a.toNat = 0xED then 0x9F else 0xBF) :
    Held [a] ⟨a.toNat - 0xE0, low, high, 1⟩ := by
  refine ⟨List.cons_ne_nil _ _, UInt8.le_iff_toNat_le.mpr ?_, ?_⟩
  · rw [hlow, hhigh]
    split_ifs <;> omega
  · intro tail d htail
    obtain ⟨b, rest, rfl, hb, hb', hrest⟩ := htail.more
    obtain ⟨c, rfl, heq, hc, hc'⟩ := hrest.one
    simp only [UInt8.reduceToNat] at hc hc'
    rw [hlow] at hb
    rw [hhigh] at hb'
    rw [heq, List.singleton_append]
    split_ifs at hb hb' <;>
      exact encode_three ha ha' (by omega) (by omega) (by omega) (by omega) hc hc'

theorem held_four {a low high : UInt8} (ha : 0xF0 ≤ a.toNat) (ha' : a.toNat < 0xF5)
    (hlow : low.toNat = if a.toNat = 0xF0 then 0x90 else 0x80)
    (hhigh : high.toNat = if a.toNat = 0xF4 then 0x8F else 0xBF) :
    Held [a] ⟨a.toNat - 0xF0, low, high, 2⟩ := by
  refine ⟨List.cons_ne_nil _ _, UInt8.le_iff_toNat_le.mpr ?_, ?_⟩
  · rw [hlow, hhigh]
    split_ifs <;> omega
  · intro tail e htail
    obtain ⟨b, rest, rfl, hb, hb', hrest⟩ := htail.more
    obtain ⟨c, rest, rfl, hc, hc', hrest⟩ := hrest.more
    obtain ⟨d, rfl, heq, hd, hd'⟩ := hrest.one
    simp only [UInt8.reduceToNat] at hc hc' hd hd'
    rw [hlow] at hb
    rw [hhigh] at hb'
    rw [heq, List.singleton_append]
    split_ifs at hb hb' <;>
      exact encode_four ha ha' (by omega) (by omega) (by omega) (by omega) hc hc' hd hd'

theorem toNat_ite_eq (a b low high : UInt8) :
    (if a = b then low else high).toNat = if a.toNat = b.toNat then low.toNat else high.toNat := by
  by_cases h : a = b
  · rw [if_pos h, if_pos (congrArg UInt8.toNat h)]
  · rw [if_neg h, if_neg (fun hnat => h (UInt8.toNat_inj.mp hnat))]

/-- A first byte is a character, or begins one, or neither. -/
theorem start_cases (a : UInt8) :
    (∃ c, start a = ([some c], none) ∧ String.utf8EncodeChar c = [a]) ∨
    (∃ p, start a = ([], some p) ∧ Held [a] p) ∨ start a = ([none], none) := by
  simp only [start, UInt8.lt_iff_toNat_lt, UInt8.reduceToNat]
  by_cases hone : a.toNat < 0x80
  · left
    refine ⟨_, if_pos hone, ?_⟩
    rw [encode_ofNat (by omega), if_pos (by omega), UInt8.ofNat_toNat]
  rw [if_neg hone]
  right
  by_cases hstray : a.toNat < 0xC2
  · exact .inr (if_pos hstray)
  rw [if_neg hstray]
  by_cases htwo : a.toNat < 0xE0
  · exact .inl ⟨_, if_pos htwo, held_two (Nat.le_of_not_lt hstray) htwo⟩
  rw [if_neg htwo]
  by_cases hthree : a.toNat < 0xF0
  · refine .inl ⟨_, if_pos hthree, held_three (Nat.le_of_not_lt htwo) hthree ?_ ?_⟩
    · exact toNat_ite_eq a 0xE0 0xA0 0x80
    · exact toNat_ite_eq a 0xED 0x9F 0xBF
  rw [if_neg hthree]
  by_cases hfour : a.toNat < 0xF5
  · refine .inl ⟨_, if_pos hfour, held_four (Nat.le_of_not_lt hthree) hfour ?_ ?_⟩
    · exact toNat_ite_eq a 0xF0 0x90 0x80
    · exact toNat_ite_eq a 0xF4 0x8F 0xBF
  exact .inr (if_neg hfour)

/-! ### The machine follows the rule -/

/-- A byte completes what is in hand, or continues it, or makes the machine give it up. -/
theorem Held.step_cases {bytes : List UInt8} {p : Pending} (h : Held bytes p) (b : UInt8) :
    (∃ c, step (some p) b = ([some c], none) ∧ String.utf8EncodeChar c = bytes ++ [b]) ∨
    (∃ q, step (some p) b = ([], some q) ∧ Held (bytes ++ [b]) q) ∨
    step (some p) b = (none :: (start b).1, (start b).2) := by
  rw [step_some]
  by_cases hrange : p.low ≤ b ∧ b ≤ p.high
  · rw [if_pos hrange]
    obtain ⟨hlow, hhigh⟩ := hrange
    rcases hmore : p.more with _ | more
    · exact .inl ⟨_, rfl, h.encodes _ _ (.last hlow hhigh hmore)⟩
    · exact .inr (.inl ⟨_, rfl, h.next hlow hhigh hmore⟩)
  · exact .inr (.inr (if_neg hrange))

theorem step_ne_nothing (state : Option Pending) (b : UInt8) : step state b ≠ ([], none) := by
  have hstart : start b ≠ ([], none) := by
    rcases start_cases b with ⟨c, h, -⟩ | ⟨p, h, -⟩ | h <;> simp [h]
  rcases state with _ | p
  · exact hstart
  · rw [step_some]
    by_cases hrange : p.low ≤ b ∧ b ≤ p.high
    · rw [if_pos hrange]
      rcases p.more with _ | more <;> simp
    · simp [if_neg hrange]

/-- The machine drops nothing: it has given something out or holds it. -/
theorem feed_eq_nothing {state : Option Pending} {bytes : List UInt8}
    (h : feed state bytes = ([], none)) : state = none ∧ bytes = [] := by
  induction bytes generalizing state with
  | nil => exact ⟨congrArg Prod.snd h, rfl⟩
  | cons b bytes ih =>
    rw [feed, Prod.mk.injEq, List.append_eq_nil_iff] at h
    obtain ⟨⟨hout, hrest⟩, hstate⟩ := h
    have hnone := (ih (Prod.ext hrest hstate)).1
    exact absurd (Prod.ext hout hnone) (step_ne_nothing state b)

/-- While nothing has been given out, the machine holds all that it has read. -/
theorem held_of_feed {bytes : List UInt8} {p : Pending} (h : feed none bytes = ([], some p)) :
    Held bytes p := by
  induction bytes using List.reverseRecOn generalizing p with
  | nil => cases h
  | append_singleton bytes b ih =>
    have hbyte : ∀ state, feed state [b] = step state b := fun state => by simp [feed]
    rw [feed_append, hbyte, Prod.mk.injEq, List.append_eq_nil_iff] at h
    obtain ⟨⟨hout, hstep⟩, hstate⟩ := h
    rcases hbytes : (feed none bytes).2 with _ | q
    · obtain ⟨-, rfl⟩ := feed_eq_nothing (Prod.ext hout hbytes)
      rw [hbytes, step_none] at hstep hstate
      rcases start_cases b with ⟨c, heq, -⟩ | ⟨q, heq, hheld⟩ | heq
      · simp [heq] at hstep
      · rw [heq] at hstate
        cases hstate
        exact hheld
      · simp [heq] at hstep
    · have hheld := ih (Prod.ext hout hbytes)
      rw [hbytes] at hstep hstate
      rcases hheld.step_cases b with ⟨c, heq, -⟩ | ⟨q', heq, hnext⟩ | heq
      · simp [heq] at hstep
      · rw [heq] at hstate
        cases hstate
        exact hnext
      · simp [heq] at hstep

theorem exists_held {bytes : List UInt8} (h : Begun bytes) :
    ∃ p, feed none bytes = ([], some p) ∧ Held bytes p := by
  obtain ⟨hne, c, rest, hrest, hc⟩ := h
  have hfeed := feed_char c
  rw [hc, feed_append, Prod.mk.injEq, List.append_eq_singleton_iff] at hfeed
  obtain ⟨⟨hout, -⟩ | ⟨-, hout⟩, hstate⟩ := hfeed
  · rcases hbytes : (feed none bytes).2 with _ | p
    · exact absurd (feed_eq_nothing (Prod.ext hout hbytes)).2 hne
    · have heq : feed none bytes = ([], some p) := Prod.ext hout hbytes
      exact ⟨p, heq, held_of_feed heq⟩
  · exact absurd (feed_eq_nothing (Prod.ext hout hstate)).2 hrest

theorem piecesFrom_append (state : Option Pending) (front back : List UInt8) :
    piecesFrom state (front ++ back) =
      (feed state front).1 ++ piecesFrom (feed state front).2 back := by
  rw [piecesFrom_eq, feed_append, piecesFrom_eq, List.append_assoc]

theorem pieces_character (c : Char) (rest : List UInt8) :
    pieces (String.utf8EncodeChar c ++ rest) = some c :: pieces rest := by
  rw [pieces, piecesFrom_append, feed_char]
  rfl

/-- **An ill-formed piece is given up as a whole, and no more than it.** -/
theorem pieces_illFormed {piece rest : List UInt8} (h : IllFormed piece rest) :
    pieces (piece ++ rest) = none :: pieces rest := by
  rcases h.maximal with ⟨hbegun, hlongest⟩ | ⟨b, rfl, hb⟩
  · obtain ⟨p, hfeed, hheld⟩ := exists_held hbegun
    rw [pieces, piecesFrom_append, hfeed, List.nil_append]
    rcases rest with _ | ⟨b, rest⟩
    · rfl
    · rcases hheld.step_cases b with ⟨c, -, hc⟩ | ⟨q, -, hnext⟩ | heq
      · exact absurd ⟨rest, by rw [hc, List.append_assoc, List.singleton_append]⟩ (h.noCharacter c)
      · exact absurd hnext.begun (hlongest b rfl)
      · rw [piecesFrom, heq]
        rfl
  · rcases start_cases b with ⟨c, -, hc⟩ | ⟨p, -, hheld⟩ | heq
    · exact absurd ⟨rest, by rw [hc]⟩ (h.noCharacter c)
    · exact absurd hheld.begun hb
    · rw [pieces, List.singleton_append, piecesFrom, step_none, heq]
      rfl

theorem lossy_of_reads {bytes : List UInt8} {text : List Char} (h : Reads bytes text) :
    (lossy bytes).toList = text := by
  rw [lossy, String.toList_ofList]
  induction h with
  | nil => rfl
  | character c _ ih => rw [pieces_character, List.map_cons, ih, Option.getD_some]
  | illFormed hpiece _ ih => rw [pieces_illFormed hpiece, List.map_cons, ih]; rfl

/-- **The text of a byte string is the one that is read by the rule**, and no other is. -/
theorem reads_iff (bytes : List UInt8) (text : String) :
    Reads bytes text.toList ↔ text = lossy bytes := by
  constructor
  · intro h
    exact String.toList_injective (lossy_of_reads h).symm
  · rintro rfl
    obtain ⟨text, htext⟩ := exists_reads bytes
    rw [lossy_of_reads htext]
    exact htext

end Transclude.Utf8

/-
  Transclude/Proofs/Path.lean
  ===========================
  **What a spelling means.**

  Idle pieces add nothing to a path, so what a spelling means is how it starts and
  its *solid* pieces, those that are not idle (`components_eq_iff`).  `parent?` and
  `join` work on spellings, but respect this: the directory of a file has the
  components of the name without the last one (`components_directory`), and joining
  puts all pieces of the second path behind pieces that are those of the first but
  for idle ones (`pieces_join`, `solid_front`).
-/
import Mathlib.Data.List.DropRight
import Transclude.Source

namespace Transclude

namespace Path

/-! ### Cutting and spelling -/

theorem cut_eq_splitOn (chars : List Char) : cut chars = chars.splitOn '/' := by
  induction chars with
  | nil => rfl
  | cons c rest ih =>
    rw [cut, List.splitOn_cons_eq_if_modifyHead, ← ih]
    by_cases hc : c = '/'
    · simp [hc]
    · simp only [hc, if_false, beq_eq_false_iff_ne.mpr hc, Bool.false_eq_true]
      rcases hcut : cut rest with _ | ⟨piece, pieces⟩
      · rw [ih] at hcut
        exact absurd hcut (List.splitOn_ne_nil _ _)
      · rfl

theorem cut_ne_nil (chars : List Char) : cut chars ≠ [] := by
  rw [cut_eq_splitOn]
  exact List.splitOn_ne_nil _ _

theorem cut_append (chars rest : List Char) :
    cut (chars ++ '/' :: rest) = cut chars ++ cut rest := by
  simp only [cut_eq_splitOn, List.splitOn_append_cons_self]

theorem cut_spell {pieces : List (List Char)} (hslash : ∀ piece ∈ pieces, '/' ∉ piece)
    (h : pieces ≠ []) : cut (spell pieces) = pieces := by
  rw [cut_eq_splitOn, spell, List.splitOn_intercalate '/' hslash h]

theorem spell_cut (chars : List Char) : spell (cut chars) = chars := by
  rw [cut_eq_splitOn, spell, List.intercalate_splitOn]

theorem slash_not_mem_of_mem_cut {chars piece : List Char} (h : piece ∈ cut chars) :
    '/' ∉ piece := by
  induction chars generalizing piece with
  | nil =>
    obtain rfl : piece = [] := by simpa [cut] using h
    exact List.not_mem_nil
  | cons c rest ih =>
    rw [cut] at h
    by_cases hc : c = '/'
    · rw [if_pos hc] at h
      rcases List.mem_cons.mp h with rfl | h
      · exact List.not_mem_nil
      · exact ih h
    · rw [if_neg hc] at h
      rcases hcut : cut rest with _ | ⟨first, others⟩
      · exact absurd hcut (cut_ne_nil rest)
      · rw [hcut] at h ih
        rcases List.mem_cons.mp h with rfl | h
        · simp [Ne.symm hc, ih List.mem_cons_self]
        · exact ih (List.mem_cons_of_mem _ h)

theorem mem_iff_mem_cut {c : Char} (hc : c ≠ '/') (chars : List Char) :
    c ∈ chars ↔ ∃ piece ∈ cut chars, c ∈ piece := by
  induction chars with
  | nil => simp [cut]
  | cons d rest ih =>
    rw [cut]
    by_cases hd : d = '/'
    · simp [hd, hc, ih]
    · rcases hcut : cut rest with _ | ⟨first, others⟩
      · exact absurd hcut (cut_ne_nil rest)
      · rw [hcut] at ih
        simp [hd, ih, or_assoc]

/-! ### Solid pieces -/

/-- The pieces that are not idle. -/
def solid (pieces : List (List Char)) : List (List Char) :=
  pieces.filter fun piece => !isIdle piece

/-- The component that a solid piece stands for. -/
def label (piece : List Char) : Component :=
  if piece = ['.', '.'] then .up else .name (String.ofList piece)

theorem solid_append (pieces more : List (List Char)) :
    solid (pieces ++ more) = solid pieces ++ solid more :=
  List.filter_append _ _

theorem solid_cons_of_idle {piece : List Char} (h : isIdle piece = true)
    (pieces : List (List Char)) : solid (piece :: pieces) = solid pieces := by
  simp [solid, h]

/-- Idle pieces have no other character than the dot. -/
theorem exists_mem_solid {c : Char} (hc : c ≠ '.') (pieces : List (List Char)) :
    (∃ piece ∈ solid pieces, c ∈ piece) ↔ ∃ piece ∈ pieces, c ∈ piece := by
  constructor
  · rintro ⟨piece, hpiece, hmem⟩
    exact ⟨piece, List.mem_of_mem_filter hpiece, hmem⟩
  · rintro ⟨piece, hpiece, hmem⟩
    refine ⟨piece, List.mem_filter.mpr ⟨hpiece, ?_⟩, hmem⟩
    rw [Bool.not_eq_true', Bool.eq_false_iff]
    intro hidle
    simp only [isIdle, Bool.or_eq_true, beq_iff_eq] at hidle
    rcases hidle with rfl | rfl
    · exact List.not_mem_nil hmem
    · exact hc (List.mem_singleton.mp hmem)

theorem solid_cut_spell {pieces : List (List Char)} (hslash : ∀ piece ∈ pieces, '/' ∉ piece) :
    solid (cut (spell pieces)) = solid pieces := by
  by_cases h : pieces = []
  · rw [h]
    rfl
  · rw [cut_spell hslash h]

theorem label_injective {piece piece' : List Char} (h : label piece = label piece') :
    piece = piece' := by
  unfold label at h
  split at h
  · next hup =>
    split at h
    · next hup' => rw [hup, hup']
    · cases h
  · split at h
    · cases h
    · exact String.ofList_injective (Component.name.inj h)

theorem filterMap_component? (pieces : List (List Char)) :
    pieces.filterMap component? = (solid pieces).map label := by
  induction pieces with
  | nil => rfl
  | cons piece pieces ih =>
    cases hidle : isIdle piece with
    | true =>
      have hnone : component? piece = none := by simp [component?, hidle]
      rw [List.filterMap_cons_none hnone, solid_cons_of_idle hidle, ih]
    | false =>
      have hsome : component? piece = some (label piece) := by
        simp only [component?, hidle, Bool.false_eq_true, if_false, label]
        split <;> rfl
      rw [List.filterMap_cons_some hsome, ih]
      simp [solid, hidle]

theorem components_eq (p : Path) :
    p.components = (lead p.pieces).components ++ (solid p.pieces).map label := by
  rw [components, filterMap_component?]

/-- How a path with the given components starts. -/
def Lead.ofComponents : List Component → Lead
  | .root :: _ => .root
  | .here :: _ => .here
  | _ => .plain

theorem ofComponents_components (p : Path) : Lead.ofComponents p.components = lead p.pieces := by
  rw [components_eq]
  cases lead p.pieces with
  | root => rfl
  | here => rfl
  | plain =>
    -- no solid piece is taken for a root or a leading dot
    cases solid p.pieces with
    | nil => rfl
    | cons piece pieces =>
      rw [List.map_cons, label]
      split <;> rfl

/-- **What a spelling means is how it starts and its solid pieces.** -/
theorem components_eq_iff {p q : Path} :
    p.components = q.components ↔
      lead p.pieces = lead q.pieces ∧ solid p.pieces = solid q.pieces := by
  constructor
  · intro h
    have hlead : lead p.pieces = lead q.pieces := by
      rw [← ofComponents_components p, ← ofComponents_components q, h]
    refine ⟨hlead, ?_⟩
    rw [components_eq, components_eq, hlead, List.append_cancel_left_eq] at h
    exact (List.map_inj_right fun _ _ => label_injective).mp h
  · rintro ⟨hlead, hsolid⟩
    rw [components_eq, components_eq, hlead, hsolid]

theorem same_iff {p q : Path} : p.same q = true ↔ p.components = q.components := by
  rw [Path.same, decide_eq_true_eq]

/-! ### Trimming -/

theorem trim_eq_rdropWhile (pieces : List (List Char)) : trim pieces = pieces.rdropWhile isIdle :=
  rfl

theorem solid_trim (pieces : List (List Char)) : solid (trim pieces) = solid pieces := by
  rw [trim_eq_rdropWhile]
  induction pieces using List.reverseRecOn with
  | nil => rfl
  | append_singleton pieces piece ih =>
    by_cases hidle : isIdle piece = true
    · rw [List.rdropWhile_concat_pos _ _ _ hidle, ih, solid_append, solid_cons_of_idle hidle]
      simp [solid]
    · rw [List.rdropWhile_concat_neg _ _ _ hidle]

theorem trim_eq_nil_iff {pieces : List (List Char)} : trim pieces = [] ↔ solid pieces = [] := by
  rw [trim_eq_rdropWhile, List.rdropWhile_eq_nil_iff, solid, List.filter_eq_nil_iff]
  simp

/-- The last piece that trimming leaves is solid, so it is the last solid piece. -/
theorem solid_dropLast_trim (pieces : List (List Char)) :
    solid (trim (trim pieces).dropLast) = (solid pieces).dropLast := by
  rw [solid_trim]
  by_cases h : trim pieces = []
  · rw [h, trim_eq_nil_iff.mp h]
    rfl
  · have hlast : isIdle ((trim pieces).getLast h) = false :=
      Bool.eq_false_iff.mpr (List.rdropWhile_last_not isIdle pieces h)
    have hsplit := congrArg solid (List.dropLast_append_getLast h)
    rw [solid_append, solid_trim] at hsplit
    rw [← hsplit]
    simp [solid, hlast]

theorem mem_of_mem_trim {piece : List Char} {pieces : List (List Char)} (h : piece ∈ trim pieces) :
    piece ∈ pieces :=
  (List.rdropWhile_prefix isIdle pieces).subset h

theorem mem_of_mem_trim_dropLast {piece : List Char} {pieces : List (List Char)}
    (h : piece ∈ trim (trim pieces).dropLast) : piece ∈ pieces :=
  mem_of_mem_trim (List.dropLast_subset _ (mem_of_mem_trim h))

/-! ### How paths start -/

theorem lead_of_not_idle {piece : List Char} (h : isIdle piece = false)
    (pieces : List (List Char)) : lead (piece :: pieces) = .plain := by
  unfold lead
  split
  · next heq =>
    obtain ⟨rfl, -⟩ := List.cons.inj heq
    cases h
  · next heq =>
    obtain ⟨rfl, -⟩ := List.cons.inj heq
    cases h
  · rfl

/-- A plain path that starts with an idle piece is the empty one. -/
theorem eq_nil_of_lead_plain {piece : List Char} {pieces : List (List Char)}
    (hlead : lead (piece :: pieces) = .plain) (hidle : isIdle piece = true) :
    piece = [] ∧ pieces = [] := by
  simp only [isIdle, Bool.or_eq_true, beq_iff_eq] at hidle
  rcases hidle with rfl | rfl
  · cases pieces with
    | nil => exact ⟨rfl, rfl⟩
    | cons next rest => cases hlead
  · cases hlead

theorem eq_nil_of_lead_root {piece : List Char} {pieces : List (List Char)}
    (h : lead (piece :: pieces) = .root) : piece = [] := by
  unfold lead at h
  split at h
  · next heq => exact (List.cons.inj heq).1
  · cases h
  · cases h

theorem pieces_ofChars (chars : List Char) : (ofChars chars).pieces = cut chars := by
  rw [pieces, ofChars, String.toList_ofList]

theorem pieces_cases (p : Path) : ∃ first rest, p.pieces = first :: rest :=
  List.exists_cons_of_ne_nil (cut_ne_nil _)

theorem components_root {body : List (List Char)} (hslash : ∀ piece ∈ body, '/' ∉ piece) :
    (ofChars ('/' :: spell body)).components = .root :: (solid body).map label := by
  have hpieces : (ofChars ('/' :: spell body)).pieces = [] :: cut (spell body) := by
    rw [pieces_ofChars, cut, if_pos rfl]
  obtain ⟨first, rest, hbody⟩ := List.exists_cons_of_ne_nil (cut_ne_nil (spell body))
  rw [components_eq, hpieces, solid_cons_of_idle rfl, solid_cut_spell hslash, hbody]
  rfl

theorem components_here {body : List (List Char)} (hslash : ∀ piece ∈ body, '/' ∉ piece) :
    (ofChars (spell (['.'] :: body))).components = .here :: (solid body).map label := by
  have hpieces : (ofChars (spell (['.'] :: body))).pieces = ['.'] :: body := by
    rw [pieces_ofChars]
    apply cut_spell
    · intro piece hpiece
      rcases List.mem_cons.mp hpiece with rfl | hpiece
      · decide
      · exact hslash piece hpiece
    · exact List.cons_ne_nil _ _
  rw [components_eq, hpieces, solid_cons_of_idle rfl]
  rfl

theorem components_plain {body : List (List Char)} (hslash : ∀ piece ∈ body, '/' ∉ piece)
    (hlead : body ≠ [] → lead body = .plain) :
    (ofChars (spell body)).components = (solid body).map label := by
  rw [components_eq, pieces_ofChars, solid_cut_spell hslash]
  by_cases hbody : body = []
  · rw [hbody]
    rfl
  · rw [cut_spell hslash hbody, hlead hbody]
    rfl

/-- What is left of a plain path when its last solid piece and more is cut off is plain. -/
theorem lead_trim_of_plain {pieces front : List (List Char)} (hlead : lead pieces = .plain)
    (hfront : front <+: pieces) (h : trim front ≠ []) : lead (trim front) = .plain := by
  obtain ⟨first, rest, hfirst⟩ := List.exists_cons_of_ne_nil h
  have hprefix : first :: rest <+: pieces := by
    rw [← hfirst]
    exact (List.rdropWhile_prefix isIdle front).trans hfront
  obtain ⟨more, rfl⟩ := hprefix
  rw [hfirst]
  cases hidle : isIdle first with
  | false => exact lead_of_not_idle hidle rest
  | true =>
    obtain ⟨-, hmore⟩ := eq_nil_of_lead_plain hlead hidle
    obtain ⟨rfl, -⟩ := List.append_eq_nil_iff.mp hmore
    have hlast := List.rdropWhile_last_not isIdle front h
    simp only [← trim_eq_rdropWhile, hfirst, List.getLast_singleton] at hlast
    exact absurd hidle hlast

theorem solid_tail {p : Path} (h : lead p.pieces ≠ .plain) :
    solid p.pieces = solid p.pieces.tail := by
  obtain ⟨first, rest, hpieces⟩ := p.pieces_cases
  rw [hpieces] at h ⊢
  cases hidle : isIdle first with
  | false => exact absurd (lead_of_not_idle hidle rest) h
  | true => rw [solid_cons_of_idle hidle, List.tail_cons]

theorem dropLast_cons_map (first : Component) {body : List (List Char)} (h : body ≠ []) :
    (first :: body.map label).dropLast = first :: body.dropLast.map label := by
  rw [List.dropLast_cons_of_ne_nil (by simpa using h), List.map_dropLast]

/-- **The parent of a path has its components but the last.**  A path without a parent has one
    component at most. -/
theorem components_parent? (p : Path) :
    (p.parent?.getD ⟨""⟩).components = p.components.dropLast := by
  have hslash : ∀ piece ∈ p.pieces, '/' ∉ piece := fun _ => slash_not_mem_of_mem_cut
  have hslash' : ∀ piece ∈ trim (trim p.pieces.tail).dropLast, '/' ∉ piece := fun piece hpiece =>
    hslash piece (List.mem_of_mem_tail (mem_of_mem_trim_dropLast hpiece))
  rw [components_eq p, parent?]
  cases hlead : lead p.pieces with
  | root =>
    rw [solid_tail (by simp [hlead])]
    simp only [Lead.components, List.cons_append, List.nil_append]
    split
    · next hnil =>
      rw [trim_eq_nil_iff.mp hnil]
      rfl
    · next hsome =>
      have hbody : solid p.pieces.tail ≠ [] := fun h => hsome (trim_eq_nil_iff.mpr h)
      rw [Option.getD_some, components_root hslash', solid_dropLast_trim, dropLast_cons_map _ hbody]
  | here =>
    rw [solid_tail (by simp [hlead])]
    simp only [Lead.components, List.cons_append, List.nil_append]
    split
    · next hnil =>
      rw [trim_eq_nil_iff.mp hnil]
      rfl
    · next hsome =>
      have hbody : solid p.pieces.tail ≠ [] := fun h => hsome (trim_eq_nil_iff.mpr h)
      rw [Option.getD_some, components_here hslash', solid_dropLast_trim, dropLast_cons_map _ hbody]
  | plain =>
    simp only [Lead.components, List.nil_append]
    split
    · next hnil =>
      rw [trim_eq_nil_iff.mp hnil]
      rfl
    · have hfront : (trim p.pieces).dropLast <+: p.pieces :=
        (List.dropLast_prefix _).trans (List.rdropWhile_prefix isIdle p.pieces)
      rw [Option.getD_some, components_plain
        (fun piece hpiece => hslash piece (mem_of_mem_trim_dropLast hpiece))
        (lead_trim_of_plain hlead hfront), solid_dropLast_trim, List.map_dropLast]

/-! ### Joining -/

theorem isAbsolute_iff (p : Path) : p.isAbsolute = true ↔ lead p.pieces = .root := by
  rw [isAbsolute, pieces]
  rcases p.spelling.toList with _ | ⟨c, rest⟩
  · simp [cut, lead]
  · obtain ⟨piece, pieces, hcut⟩ := List.exists_cons_of_ne_nil (cut_ne_nil rest)
    by_cases hc : c = '/'
    · simp [cut, hc, hcut, lead]
    · have hplain : lead ((c :: piece) :: pieces) ≠ .root := by
        intro hroot
        have hnil := eq_nil_of_lead_root hroot
        cases hnil
      simp [cut, hc, hcut, hplain]

theorem components_eq_nil_iff (p : Path) : p.components = [] ↔ p.spelling = "" := by
  constructor
  · intro h
    rw [components_eq, List.append_eq_nil_iff, List.map_eq_nil_iff] at h
    obtain ⟨hcomponents, hsolid⟩ := h
    have hlead : lead p.pieces = .plain := by
      cases hlead : lead p.pieces with
      | root | here => simp [hlead, Lead.components] at hcomponents
      | plain => rfl
    obtain ⟨first, rest, hpieces⟩ := p.pieces_cases
    have hidle : isIdle first = true := by
      rw [hpieces, solid, List.filter_eq_nil_iff] at hsolid
      simpa using hsolid first List.mem_cons_self
    rw [hpieces] at hlead
    obtain ⟨rfl, rfl⟩ := eq_nil_of_lead_plain hlead hidle
    have hchars := spell_cut p.spelling.toList
    rw [← pieces, hpieces] at hchars
    exact String.toList_eq_nil_iff.mp hchars.symm
  · intro h
    rw [components, pieces, h]
    rfl

/-- Whether another path can be put behind a path without a slash between them. -/
def ends (p : Path) : Bool := p.spelling = "" || p.spelling.toList.getLast? == some '/'

/-- The pieces of a path that another can be put behind: all but an empty one at the end. -/
def front (p : Path) : List (List Char) := if p.ends then p.pieces.dropLast else p.pieces

theorem toList_of_ends {p : Path} (h : p.ends = true) :
    p.spelling.toList = [] ∨ ∃ chars, p.spelling.toList = chars ++ ['/'] := by
  simp only [ends, Bool.or_eq_true, decide_eq_true_eq, beq_iff_eq] at h
  rcases h with h | h
  · left
    rw [h]
    rfl
  · right
    exact List.getLast?_eq_some_iff.mp h

theorem front_cases (p : Path) : p.pieces = p.front ∨ p.pieces = p.front ++ [[]] := by
  unfold front
  split
  · next h =>
    right
    rw [pieces]
    rcases toList_of_ends h with hchars | ⟨chars, hchars⟩
    · rw [hchars]
      rfl
    · rw [hchars, cut_append, cut, List.dropLast_concat]
  · left
    rfl

theorem solid_front (p : Path) : solid p.front = solid p.pieces := by
  rcases p.front_cases with h | h
  · rw [h]
  · rw [h, solid_append]
    simp [solid, isIdle]

theorem join_of_absolute (base : Path) {x : Path} (h : x.isAbsolute = true) :
    base.join x = x := by
  rw [join, h]
  rfl

theorem join_of_relative (base : Path) {x : Path} (h : x.isAbsolute = false) :
    base.join x =
      if base.ends then ⟨base.spelling ++ x.spelling⟩
      else ⟨base.spelling ++ "/" ++ x.spelling⟩ := by
  rw [join, h]
  rfl

theorem exists_spelling_join (base : Path) {x : Path} (h : x.isAbsolute = false) :
    ∃ rest, (base.join x).spelling = base.spelling ++ rest := by
  rw [join_of_relative base h]
  split
  · exact ⟨x.spelling, rfl⟩
  · exact ⟨"/" ++ x.spelling, String.append_assoc⟩

/-- **Joining puts the pieces of a relative path behind those of the first.** -/
theorem pieces_join (base : Path) {x : Path} (h : x.isAbsolute = false) :
    (base.join x).pieces = base.front ++ x.pieces := by
  rw [join_of_relative base h, front]
  split
  · next hends =>
    simp only [pieces, String.toList_append]
    rcases toList_of_ends hends with hchars | ⟨chars, hchars⟩
    · rw [hchars]
      rfl
    · rw [hchars, cut_append, List.append_assoc, List.singleton_append, cut_append]
      simp [cut]
  · have hslash : "/".toList = ['/'] := rfl
    simp only [pieces, String.toList_append, hslash, List.append_assoc, List.singleton_append,
      cut_append]

/-- Apart from slashes and dots, a path that was joined has the characters of the solid pieces
    of the first and of all pieces of the second. -/
theorem mem_join {c : Char} (hslash : c ≠ '/') (hdot : c ≠ '.') (base : Path) {x : Path}
    (h : x.isAbsolute = false) :
    c ∈ (base.join x).spelling.toList ↔
      (∃ piece ∈ solid base.pieces, c ∈ piece) ∨ ∃ piece ∈ x.pieces, c ∈ piece := by
  rw [mem_iff_mem_cut hslash, ← pieces, pieces_join base h, ← solid_front, exists_mem_solid hdot]
  simp only [List.mem_append, or_and_right, exists_or]

end Path

theorem SourceFile.components_directory (file : SourceFile) :
    file.directory.components = file.name.components.dropLast :=
  file.name.components_parent?

end Transclude

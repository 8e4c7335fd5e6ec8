/-
  Transclude/Proofs/Resolution.lean
  =================================
  **Paths that are seen from the directory of a file.**

  The directory of a file and the path that is joined to it are worked out on
  spellings, but which file is meant is a matter of components.  In these terms the
  rule is short: the components of the file but the last, and behind them those of
  the path, of which a leading dot counts only where nothing stands before it
  (`beneath`).

  The same rule holds in two places: for the argument of a call, seen from the
  calling file, and for the marker module that a settings file names, seen from the
  settings file.
-/
import Transclude.Proofs.Expansion
import Transclude.Proofs.Path
import Transclude.Settings

namespace Transclude

namespace Path

/-- The components of a relative path behind those of a directory.  A leading dot is dropped
    exactly if there is something before it. -/
def beneath (front : List Component) : List Component → List Component
  | .here :: components => if front = [] then .here :: components else front ++ components
  | components => front ++ components

theorem beneath_of_nil (components : List Component) : beneath [] components = components := by
  unfold beneath
  split
  · exact if_pos rfl
  · rfl

theorem beneath_here {front : List Component} (h : front ≠ []) (components : List Component) :
    beneath front (.here :: components) = front ++ components :=
  if_neg h

/-- A path that does not start with a dot is put behind the directory as it is. -/
theorem beneath_plain (front : List Component) {components : List Component}
    (h : Lead.ofComponents components = .plain) : beneath front components = front ++ components := by
  unfold beneath
  split
  · simp [Lead.ofComponents] at h
  · rfl

/-! ### Joining -/

theorem lead_nil_cons {more : List (List Char)} (h : more ≠ []) : lead ([] :: more) = .root := by
  obtain ⟨next, rest, rfl⟩ := List.exists_cons_of_ne_nil h
  rfl

/-- How a path starts is settled by its first piece, if that is not empty. -/
theorem lead_cons {first : List Char} (h : first ≠ []) (more : List (List Char)) :
    lead (first :: more) = lead [first] := by
  by_cases hidle : isIdle first = true
  · have hdot : first = ['.'] := by simpa [isIdle, h] using hidle
    rw [hdot]
    rfl
  · rw [Bool.not_eq_true] at hidle
    rw [lead_of_not_idle hidle, lead_of_not_idle hidle]

theorem components_of_pieces {p : Path} (h : p.pieces = [[]]) : p.components = [] := by
  rw [components, h]
  rfl

theorem exists_front {p : Path} (hp : p.components ≠ []) {first : List Char}
    {rest : List (List Char)} (hpieces : p.pieces = first :: rest) :
    ∃ others, p.front = first :: others := by
  rcases p.front_cases with hall | hslash
  · exact ⟨rest, hall.symm.trans hpieces⟩
  · rw [hslash] at hpieces
    rcases hfront : p.front with _ | ⟨first', others⟩
    · rw [hfront] at hslash
      exact absurd (components_of_pieces hslash) hp
    · simp only [hfront, List.cons_append, List.cons.injEq] at hpieces
      exact ⟨others, by rw [hpieces.1]⟩

/-- A path that something is joined to starts as it did before. -/
theorem lead_front_append {base : Path} (hbase : base.components ≠ []) {more : List (List Char)}
    (hmore : more ≠ []) : lead (base.front ++ more) = lead base.pieces := by
  obtain ⟨first, rest, hpieces⟩ := base.pieces_cases
  obtain ⟨others, hfront⟩ := exists_front hbase hpieces
  rw [hfront, hpieces, List.cons_append]
  by_cases hfirst : first = []
  · subst hfirst
    have hrest : rest ≠ [] := by
      intro hnil
      rw [hnil] at hpieces
      exact hbase (components_of_pieces hpieces)
    rw [lead_nil_cons hrest, lead_nil_cons (List.append_ne_nil_of_right_ne_nil others hmore)]
  · rw [lead_cons hfirst, lead_cons hfirst rest]

/-- **Joining puts the components of a relative path behind those of the first.** -/
theorem components_join (base : Path) {x : Path} (hx : x.isAbsolute = false) :
    (base.join x).components = beneath base.components x.components := by
  by_cases hbase : base.components = []
  · have hempty : base.spelling = "" := base.components_eq_nil_iff.mp hbase
    have hends : base.ends = true := by simp [ends, hempty]
    rw [join_of_relative base hx, if_pos hends, hempty, hbase, beneath_of_nil, String.empty_append]
  · have hpieces := pieces_join base hx
    have hlead := lead_front_append hbase (cut_ne_nil x.spelling.toList)
    have hjoined : (base.join x).components = base.components ++ (solid x.pieces).map label := by
      rw [components_eq, hpieces, pieces, hlead, solid_append, solid_front, List.map_append,
        ← List.append_assoc, ← components_eq, ← pieces]
    rw [hjoined]
    have hstart := ofComponents_components x
    cases hx' : lead x.pieces with
    | root =>
      rw [(isAbsolute_iff x).mpr hx'] at hx
      cases hx
    | here =>
      rw [components_eq x, hx']
      exact (beneath_here hbase _).symm
    | plain =>
      rw [hx'] at hstart
      rw [beneath_plain _ hstart, components_eq x, hx']
      rfl

/-! ### The parent -/

/-- **Only the empty path and the root have no parent.** -/
theorem parent?_eq_none_iff (p : Path) :
    p.parent? = none ↔ p.components = [] ∨ p.components = [.root] := by
  rw [parent?, components_eq]
  cases hlead : lead p.pieces with
  | root =>
    have htail : trim p.pieces.tail = [] ↔ solid p.pieces = [] := by
      rw [trim_eq_nil_iff, solid_tail (by simp [hlead])]
    simp only [Lead.components]
    split
    · next hnil => simp [htail.mp hnil]
    · next hsome => simpa using fun h => hsome (htail.mpr h)
  | here =>
    simp only [Lead.components]
    split <;> simp
  | plain =>
    simp only [Lead.components]
    split
    · next hnil => simp [trim_eq_nil_iff.mp hnil]
    · next hsome =>
      -- a solid piece is no root
      have hsolid : solid p.pieces ≠ [] := fun h => hsome (trim_eq_nil_iff.mpr h)
      have hstart := ofComponents_components p
      rw [hlead, components_eq, hlead] at hstart
      simp only [Lead.components, List.nil_append] at hstart ⊢
      constructor
      · intro hnone
        cases hnone
      · rintro (hempty | hroot)
        · exact absurd (List.map_eq_nil_iff.mp hempty) hsolid
        · rw [hroot] at hstart
          cases hstart

theorem exists_parent {p : Path} (hne : p.components ≠ []) (hroot : p.components ≠ [.root]) :
    ∃ directory, p.parent? = some directory ∧ directory.components = p.components.dropLast := by
  have hsome : p.parent? ≠ none := by
    intro hnone
    rcases (parent?_eq_none_iff p).mp hnone with h | h
    · exact hne h
    · exact hroot h
  obtain ⟨directory, hdirectory⟩ := Option.ne_none_iff_exists'.mp hsome
  have hcomponents := components_parent? p
  rw [hdirectory, Option.getD_some] at hcomponents
  exact ⟨directory, hdirectory, hcomponents⟩

end Path

/-! ### The two uses -/

namespace Expansion

/-- A call reads the file that its argument names, and nothing else. -/
theorem ofCall_eq_read {disk : Disk} {file : SourceFile} {function text : String}
    {slot : Option Slot} {call : Node} (argument : FirstArgument call text) :
    ofCall disk file function slot call =
      (disk.read (file.directory.join ⟨text⟩)).mapError (.io (file.directory.join ⟨text⟩)) >>=
        fun bytes => ofContent text (file.directory.join ⟨text⟩) slot function
          (Utf8.lossy bytes) := by
  unfold ofCall
  rw [argument?_eq_some_iff.mpr argument]
  rfl

end Expansion

namespace Settings

/-- A settings file in some directory sets the marker module that its document names, as seen
    from there. -/
theorem load_eq_ok_iff {disk : Disk} {path directory : Path} (h : path.parent? = some directory)
    {marker : Marker} :
    load disk path = .ok marker ↔
      ∃ bytes text named, disk.read path = .ok bytes ∧ Utf8.decode? bytes = some text
        ∧ markerOfText text = .ok named ∧ marker = ⟨directory.join named.path⟩ := by
  simp only [load, h, Result.bind_eq_ok_iff, Result.mapError_eq_ok_iff]
  constructor
  · rintro ⟨bytes, hread, hrest⟩
    split at hrest
    · cases hrest
    · next text htext =>
      obtain ⟨named, hnamed, hmarker⟩ := Result.bind_eq_ok_iff.mp hrest
      rw [Result.mapError_eq_ok_iff] at hnamed
      exact ⟨bytes, text, named, hread, htext, hnamed, (Except.ok.inj hmarker).symm⟩
  · rintro ⟨bytes, text, named, hread, htext, hnamed, rfl⟩
    refine ⟨bytes, hread, ?_⟩
    simp only [htext, hnamed]
    rfl

end Settings

namespace Path

/-- **What is seen from the directory of a file.**  A relative path is found beneath the
    components of the file but the last, and an absolute one is itself.  So it is for the file
    that the argument of a call names and for the marker module of a settings file, and the
    marker module declares exactly the files that have those components. -/
theorem components_resolution {p : Path} (hne : p.components ≠ []) (hroot : p.components ≠ [.root]) :
    ∃ directory, p.parent? = some directory
      ∧ (∀ x : Path, x.isAbsolute = false →
          (directory.join x).components = beneath p.components.dropLast x.components)
      ∧ (∀ x : Path, x.isAbsolute = true → directory.join x = x)
      ∧ (∀ (disk : Disk) (file : SourceFile) (function text : String) (slot : Option Slot)
          (call : Node), file.name = p → Expansion.FirstArgument call text →
          Expansion.ofCall disk file function slot call =
            (disk.read (directory.join ⟨text⟩)).mapError (.io (directory.join ⟨text⟩)) >>=
              fun bytes => Expansion.ofContent text (directory.join ⟨text⟩) slot function
                (Utf8.lossy bytes))
      ∧ (∀ (disk : Disk) (marker : Marker), Settings.load disk p = .ok marker ↔
          ∃ bytes text named, disk.read p = .ok bytes ∧ Utf8.decode? bytes = some text
            ∧ Settings.markerOfText text = .ok named ∧ marker = ⟨directory.join named.path⟩)
      ∧ (∀ (named : Marker) (file : Path), named.path.isAbsolute = false →
          (Marker.declares ⟨directory.join named.path⟩ file = true ↔
            file.components = beneath p.components.dropLast named.path.components)) := by
  obtain ⟨directory, hdirectory, hcomponents⟩ := exists_parent hne hroot
  have hjoin : ∀ x : Path, x.isAbsolute = false →
      (directory.join x).components = beneath p.components.dropLast x.components := by
    intro x hx
    rw [components_join directory hx, hcomponents]
  refine ⟨directory, hdirectory, hjoin, fun x hx => join_of_absolute directory hx, ?_, ?_, ?_⟩
  · intro disk file function text slot call hname hargument
    have hfile : file.directory = directory := by
      rw [SourceFile.directory, hname, hdirectory]
      rfl
    rw [← hfile]
    exact Expansion.ofCall_eq_read hargument
  · intro disk marker
    exact Settings.load_eq_ok_iff hdirectory
  · intro named file hrelative
    rw [Marker.declares, same_iff, hjoin named.path hrelative]

/-- A file behind a step upwards, with a path that starts with a dot and ends with a slash. -/
theorem components_resolution_upwards :
    (⟨"/a/./b/..//c.toml/."⟩ : Path).components ≠ []
    ∧ (⟨"/a/./b/..//c.toml/."⟩ : Path).components ≠ [.root]
    ∧ ∃ directory, (⟨"/a/./b/..//c.toml/."⟩ : Path).parent? = some directory
      ∧ (directory.join ⟨"./x/../y/"⟩).components =
          [.root, .name "a", .name "b", .up, .name "x", .up, .name "y"] := by
  have hne : (⟨"/a/./b/..//c.toml/."⟩ : Path).components ≠ [] := by decide
  have hroot : (⟨"/a/./b/..//c.toml/."⟩ : Path).components ≠ [.root] := by decide
  obtain ⟨directory, hdirectory, hjoin, -⟩ := components_resolution hne hroot
  refine ⟨hne, hroot, directory, hdirectory, ?_⟩
  rw [hjoin ⟨"./x/../y/"⟩ (by decide)]
  decide

end Path

end Transclude

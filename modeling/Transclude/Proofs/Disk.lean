/-
  Transclude/Proofs/Disk.lean
  ===========================
  **Idle pieces on the way make no difference to what is read.**

  Every piece of a path is followed from a directory, idle pieces too, so at the end
  of a path an idle piece does make a difference: it asks for a directory.  Before
  another piece it makes none, since that piece asks for the directory all the same,
  with the same error if there is none (`foldlM_follow`).  A file that is named from
  a directory is therefore the same file, or the same error, from all spellings of
  the directory (`read_join`), as far as the limit on the length of paths lets both
  be looked at.
-/
import Transclude.Disk
import Transclude.Proofs.Path

namespace Transclude.Disk

theorem follow_of_directory {disk : Disk} {place : Place} {piece : List Char}
    (h : disk.lookup place = some .directory) (hidle : Path.isIdle piece = true) :
    disk.follow place piece = .ok place := by
  simp only [follow, h, hidle, if_true]

/-- Where there is no directory, all pieces fail in the same way. -/
theorem follow_eq_of_not_directory {disk : Disk} {place : Place}
    (h : disk.lookup place ≠ some .directory) (piece piece' : List Char) :
    disk.follow place piece = disk.follow place piece' ∧
      ∃ error, disk.follow place piece' = .error error := by
  unfold follow
  rcases hlookup : disk.lookup place with _ | holding
  · exact ⟨rfl, _, rfl⟩
  · cases holding with
    | directory => exact absurd hlookup h
    | file content => exact ⟨rfl, _, rfl⟩

/-- **Idle pieces before another piece make no difference.** -/
theorem foldlM_follow (disk : Disk) (piece : List Char) (pieces : List (List Char)) :
    ∀ (front : List (List Char)) (place : Place),
      (front ++ piece :: pieces).foldlM disk.follow place =
        (Path.solid front ++ piece :: pieces).foldlM disk.follow place := by
  intro front
  induction front with
  | nil =>
    intro place
    rfl
  | cons first front ih =>
    intro place
    cases hidle : Path.isIdle first with
    | false =>
      have hsolid : Path.solid (first :: front) = first :: Path.solid front := by
        simp [Path.solid, hidle]
      simp only [hsolid, List.cons_append, List.foldlM_cons, ih]
    | true =>
      rw [Path.solid_cons_of_idle hidle, ← ih, List.cons_append, List.foldlM_cons]
      by_cases hdirectory : disk.lookup place = some .directory
      · rw [follow_of_directory hdirectory hidle]
        rfl
      · -- the next piece fails at the same place and in the same way
        obtain ⟨next, rest, hnext⟩ : ∃ next rest, front ++ piece :: pieces = next :: rest :=
          List.exists_cons_of_ne_nil (by simp)
        obtain ⟨hsame, error, herror⟩ := follow_eq_of_not_directory hdirectory first next
        rw [hnext, List.foldlM_cons, hsame, herror]
        rfl

section Joining

variable {base base' : Path}

/-- How a path from some directory is followed, in terms of what the directory means. -/
theorem resolve_of_relative (disk : Disk) {x : Path} (hempty : base.spelling ≠ "")
    (hx : x.isAbsolute = false) :
    disk.resolve (base.join x) =
      if (base.join x).spelling.toList.contains '\x00' then .error .nulInName
      else if pathLimit < (base.join x).spelling.utf8ByteSize then .error .nameTooLong
      else (Path.solid base.pieces ++ x.pieces).foldlM disk.follow (disk.startOf base) := by
  obtain ⟨first, rest, hfirst⟩ := x.pieces_cases
  obtain ⟨more, hmore⟩ := base.exists_spelling_join hx
  have hspelling : (base.join x).spelling ≠ "" := by
    rw [hmore]
    intro h
    exact hempty (String.append_eq_empty_iff.mp h).1
  have hstart : disk.startOf (base.join x) = disk.startOf base := by
    obtain ⟨c, chars, hchars⟩ :=
      List.exists_cons_of_ne_nil fun h => hempty (String.toList_eq_nil_iff.mp h)
    simp only [startOf, Path.isAbsolute, hmore, String.toList_append, hchars, List.cons_append,
      List.head?_cons]
  rw [resolve, if_neg hspelling, Path.pieces_join base hx, hfirst, foldlM_follow,
    Path.solid_front, hstart]

/-- **All spellings of a directory lead to the same place.** -/
theorem resolve_join (disk : Disk) (x : Path) (h : base.components = base'.components)
    (hlimit : pathLimit < (base.join x).spelling.utf8ByteSize ↔
      pathLimit < (base'.join x).spelling.utf8ByteSize) :
    disk.resolve (base.join x) = disk.resolve (base'.join x) := by
  by_cases hx : x.isAbsolute = true
  · rw [base.join_of_absolute hx, base'.join_of_absolute hx]
  rw [Bool.not_eq_true] at hx
  have hempty : base.spelling = "" ↔ base'.spelling = "" := by
    rw [← Path.components_eq_nil_iff, ← Path.components_eq_nil_iff, h]
  by_cases hbase : base.spelling = ""
  · -- from nowhere there is one spelling only
    have hsame : base = base' := by
      obtain ⟨spelling⟩ := base
      obtain ⟨spelling'⟩ := base'
      rw [Path.mk.injEq]
      exact hbase.trans (hempty.mp hbase).symm
    rw [hsame]
  · obtain ⟨hlead, hsolid⟩ := Path.components_eq_iff.mp h
    have hstart : disk.startOf base = disk.startOf base' := by
      simp only [startOf, Path.isAbsolute_iff, hlead]
    have hnul : (base.join x).spelling.toList.contains '\x00' =
        (base'.join x).spelling.toList.contains '\x00' := by
      rw [Bool.eq_iff_iff, List.contains_iff_mem, List.contains_iff_mem,
        Path.mem_join (by decide) (by decide) base hx,
        Path.mem_join (by decide) (by decide) base' hx, hsolid]
    rw [resolve_of_relative disk hbase hx, resolve_of_relative disk (mt hempty.mpr hbase) hx, hnul,
      hsolid, hstart]
    simp only [hlimit]

/-- **All spellings of a directory lead to the same file.** -/
theorem read_join (disk : Disk) (x : Path) (h : base.components = base'.components)
    (hlimit : pathLimit < (base.join x).spelling.utf8ByteSize ↔
      pathLimit < (base'.join x).spelling.utf8ByteSize) :
    disk.read (base.join x) = disk.read (base'.join x) := by
  rw [read, read, resolve_join disk x h hlimit]

/-- A file next to the working directory, by an absolute path and by relative ones. -/
example :
    let disk := Disk.write ⟨[], ⟨["work", "home"]⟩⟩ ⟨"/home/data/a.txt"⟩ [104, 105]
    disk.read (Path.join ⟨"/home//data/."⟩ ⟨"a.txt"⟩) = .ok [104, 105] ∧
      disk.read (Path.join ⟨"../data"⟩ ⟨"a.txt"⟩) = .ok [104, 105] ∧
      disk.read (Path.join ⟨"data"⟩ ⟨"a.txt"⟩) = .error .missing := by
  decide

end Joining

end Transclude.Disk

/-
  Transclude/Proofs/Failure.lean
  ==============================
  **A failure that is blamed again and again.**

  Each time a place is put on top of the frames, its margin is taken from the frame
  that it pushes down.  A place starts with a letter behind its margin, so the next
  one finds the same margin again: the margin of the frame that was on top at first is
  handed on through any number of places, and it is all that they share with the
  frames below.
-/
import Transclude.Failure

namespace Transclude

/-! ### Margins -/

/-- A line starts with the given white space, and with no more than that. -/
structure IsMargin (line margin : String) : Prop where
  blank : ∀ c ∈ margin.toList, isBlank c = true
  behind : ∃ rest, line = margin ++ rest ∧ ∀ c, rest.toList.head? = some c → isBlank c = false

theorem indentation_append {margin line : String} (hmargin : ∀ c ∈ margin.toList, isBlank c = true)
    (hline : ∀ c, line.toList.head? = some c → isBlank c = false) :
    indentation (margin ++ line) = margin := by
  have hnone : line.toList.takeWhile isBlank = [] := by
    cases hchars : line.toList with
    | nil => rfl
    | cons c rest =>
      apply List.takeWhile_cons_of_neg
      simp [hline c (by rw [hchars]; rfl)]
  rw [indentation, String.toList_append, List.takeWhile_append_of_pos hmargin, hnone,
    List.append_nil, String.ofList_toList]

/-- The text behind the white space that a line starts with. -/
def unindented (line : String) : String := String.ofList (line.toList.dropWhile isBlank)

theorem indentation_append_unindented (line : String) :
    indentation line ++ unindented line = line := by
  apply String.toList_injective
  simp only [indentation, unindented, String.toList_append, String.toList_ofList,
    List.takeWhile_append_dropWhile]

theorem isBlank_of_mem_indentation {line : String} {c : Char} (h : c ∈ (indentation line).toList) :
    isBlank c = true := by
  simp only [indentation, String.toList_ofList] at h
  exact List.all_eq_true.mp List.all_takeWhile c h

/-- **A line has one margin.** -/
theorem isMargin_iff {line margin : String} : IsMargin line margin ↔ indentation line = margin := by
  constructor
  · rintro ⟨hblank, rest, rfl, hrest⟩
    exact indentation_append hblank hrest
  · rintro rfl
    refine ⟨fun c => isBlank_of_mem_indentation, unindented line, ?_, ?_⟩
    · exact (indentation_append_unindented line).symm
    · intro c hc
      simp only [unindented, String.toList_ofList] at hc
      have hstop := List.head?_dropWhile_not isBlank line.toList
      rwa [hc] at hstop

namespace Failure

/-! ### One place -/

/-- The frame that names a place, behind a margin. -/
def placeFrame (margin location : String) : String := margin ++ "at " ++ location

/-- A frame that names a place has the margin that it was given. -/
theorem indentation_placeFrame {line margin : String} (h : indentation line = margin)
    (location : String) : indentation (placeFrame margin location) = margin := by
  subst h
  rw [placeFrame, String.append_assoc]
  apply indentation_append
  · intro c hc
    exact isBlank_of_mem_indentation hc
  · intro c hc
    have hfirst : ("at " ++ location).toList.head? = some 'a' := by
      rw [String.toList_append]
      rfl
    rw [hfirst] at hc
    obtain rfl := Option.some.inj hc
    decide

/-! ### Any number of places -/

/-- Blames one node after the other, each of them in its own file. -/
def blameAll (failure : Failure) (places : List (SourceFile × Node)) : Failure :=
  places.foldl (fun failure place => failure.blameNode place.1 place.2) failure

/-- The margin of the top frame is the same before each place and after it. -/
theorem blameAll_of_margin {margin : String} (cause : Cause) (headline : String)
    (places : List (SourceFile × Node)) :
    ∀ frames : List String, indentation (frames.head?.getD "") = margin →
      blameAll ⟨cause, headline :: frames⟩ places =
        ⟨cause, headline ::
          (places.reverse.map (fun place => placeFrame margin (place.1.location place.2))
            ++ frames)⟩ := by
  induction places with
  | nil =>
    intro frames _
    rfl
  | cons place places ih =>
    intro frames hmargin
    have hstep : blameNode ⟨cause, headline :: frames⟩ place.1 place.2 =
        ⟨cause, headline :: placeFrame margin (place.1.location place.2) :: frames⟩ := by
      rw [← hmargin]
      rfl
    have hnext := ih (placeFrame margin (place.1.location place.2) :: frames)
      (indentation_placeFrame hmargin _)
    rw [blameAll, List.foldl_cons, hstep]
    simpa [blameAll] using hnext

/-- **Places pile up on top of the frames, and nothing else changes.**  Of the nodes that are
    blamed in turn the last is on top and the first is directly above the frames that were
    there; each is shown behind the white space with which the top frame started, and behind
    none if there was no frame. -/
theorem blameAll_eq (cause : Cause) (headline : String) (frames : List String)
    (places : List (SourceFile × Node)) :
    ∃ margin : String,
      (∀ first, frames.head? = some first → IsMargin first margin) ∧
      (frames = [] → margin = "") ∧
      blameAll ⟨cause, headline :: frames⟩ places =
        ⟨cause, headline ::
          ((places.map fun place => margin ++ "at " ++ place.1.location place.2).reverse
            ++ frames)⟩ := by
  refine ⟨indentation (frames.head?.getD ""), ?_, ?_, ?_⟩
  · intro first hfirst
    rw [hfirst, Option.getD_some]
    exact isMargin_iff.mpr rfl
  · rintro rfl
    rfl
  · have hall := blameAll_of_margin cause headline places frames rfl
    rw [hall, List.map_reverse]
    rfl

/-- A frame of white space only is all margin: here a tab and a wide space. -/
example :
    (((⟨.unknownFunction "f", ["UnknownFunction", "\t\u3000"]⟩ : Failure).blame "a.ts:1:4").blame
      "b.ts:2:4").trace =
      ["UnknownFunction", "\t\u3000at b.ts:2:4", "\t\u3000at a.ts:1:4", "\t\u3000"] := by
  rfl

end Failure

end Transclude

/-
  Transclude/Proofs/Session/Failing.lean
  ======================================
  **When a transformation fails, with what, and how far it came.**

  Only topmost calls can fail: a call below another marked node is never looked at,
  and imports never fail.  The transformation fails exactly if some topmost call has
  a failing outcome by the rules of `Expansion.FailsWith`; the failure is that of
  the first such call in preorder, and the tally has grown by the topmost calls and
  imports before it.
-/
import Transclude.Proofs.Session.Course

namespace Transclude.Session

variable {program : Program} {marker : Marker} {disk : Disk} {recording : Recording}
  {file : SourceFile}

theorem failure?_eq_some_iff {s : Site} {failure : Failure} :
    failure? program marker disk recording file s = some failure ↔
      ∃ function cause, s.TopmostCall marker program function
        ∧ Expansion.FailsWith disk file s.slot? s.node function cause
        ∧ failure = (Failure.raise (recording.enter (.inlining function)) cause).blameNode file
            s.node := by
  constructor
  · intro h
    unfold failure? at h
    split at h
    · next hclear =>
      unfold failureAt? at h
      split at h
      · next function hcalled =>
        split at h
        · cases h
        · next cause hexpansion =>
          cases h
          exact ⟨function, cause, ⟨hclear, hcalled⟩,
            Expansion.ofCall_eq_error_iff.mp hexpansion, rfl⟩
      · cases h
    · cases h
  · rintro ⟨function, cause, ⟨hclear, hcalled⟩, hfails, rfl⟩
    have hexpansion := Expansion.ofCall_eq_error_iff.mpr hfails
    simp only [failure?, hclear, if_true, failureAt?, hcalled, hexpansion]

theorem not_failsWith_of_sound {s : Site} {function : String}
    (h : failure? program marker disk recording file s = none)
    (hcall : s.TopmostCall marker program function) (cause : Cause) :
    ¬ Expansion.FailsWith disk file s.slot? s.node function cause := by
  intro hfails
  have hsome : failure? program marker disk recording file s = some _ :=
    failure?_eq_some_iff.mpr ⟨function, cause, hcall, hfails, rfl⟩
  rw [h] at hsome
  cases hsome

/-- **When and with what a transformation fails.**  It fails iff some topmost call has a
    failing outcome.  The cause is that of the first such call in preorder, which has no
    other outcome, and the topmost calls and imports before it have been counted. -/
theorem transform_fails (session : Session) (disk : Disk) (recording : Recording)
    (file : SourceFile) :
    ((∃ failure, (session.transform disk recording file).1 = .error failure) ↔
      ∃ s ∈ file.root.sites [], ∃ function cause,
        s.TopmostCall session.marker session.program function
          ∧ Expansion.FailsWith disk file s.slot? s.node function cause) ∧
    ∀ failure after, session.transform disk recording file = (.error failure, after) →
      ∃ before s later function, file.root.sites [] = before ++ s :: later
        ∧ s.TopmostCall session.marker session.program function
        ∧ (∀ cause, Expansion.FailsWith disk file s.slot? s.node function cause ↔
            cause = failure.cause)
        ∧ (∀ s' ∈ before, ∀ function' cause,
            s'.TopmostCall session.marker session.program function' →
              ¬ Expansion.FailsWith disk file s'.slot? s'.node function' cause)
        ∧ after = { session with tally :=
            ⟨session.tally.inlined + countCalls session.marker session.program before,
              session.tally.pruned + countImports session.marker session.program before⟩ } := by
  rcases first_failing (recording.enter (.transforming file.name)) (file.root.sites []) with
    hsound | ⟨before, s, later, failure, hsites, hbefore, hfailing⟩
  · have hresult := transform_of_sound session hsound
    rw [hresult]
    refine ⟨⟨?_, ?_⟩, ?_⟩
    · rintro ⟨failure, hfailure⟩
      cases hfailure
    · rintro ⟨s, hs, function, cause, hcall, hfails⟩
      exact absurd hfails (not_failsWith_of_sound (hsound s hs) hcall cause)
    · intro failure after hfailure
      cases hfailure
  · have hresult := transform_of_failing session hsites hbefore hfailing
    obtain ⟨function, cause, hcall, hfails, hfailure⟩ := failure?_eq_some_iff.mp hfailing
    have hcause : failure.cause = cause := by rw [hfailure]; rfl
    rw [hresult]
    refine ⟨⟨?_, ?_⟩, ?_⟩
    · intro _
      refine ⟨s, ?_, function, cause, hcall, hfails⟩
      rw [hsites]
      exact List.mem_append_right _ List.mem_cons_self
    · intro _
      exact ⟨failure, rfl⟩
    · intro failure' after heq
      obtain ⟨hfst, hsnd⟩ := Prod.mk.inj heq
      cases hfst
      refine ⟨before, s, later, function, hsites, hcall, ?_, ?_, hsnd.symm⟩
      · intro cause'
        -- the outcome of a call is a function of the call, so there is no second cause
        rw [hcause, ← Expansion.ofCall_eq_error_iff, Expansion.ofCall_eq_error_iff.mpr hfails]
        constructor
        · intro hsame
          exact (Except.error.inj hsame).symm
        · rintro rfl
          rfl
      · intro s' hs' function' cause' hcall'
        exact not_failsWith_of_sound (hbefore s' hs') hcall' cause'

end Transclude.Session

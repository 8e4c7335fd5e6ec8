/-
  Transclude/Proofs/Session/History.lean
  ======================================
  **A session has no memory but its tally.**

  A session is asked again and again: to transform a file, which may be the result
  of an earlier request, or to transform all sources of its program.  Between two
  requests the disk may change in any way.  What a session answers does not depend
  on what it was asked before, and each request adds to the tally what it would have
  counted by itself, also where it fails.

  One request (`serve_eq_fresh`) is compared with the same request to a session that
  has just been started, and whole transcripts follow by induction on the script of
  requests.  A script may look at all answers so far before it decides what to ask
  next.
-/
import Mathlib.Data.List.Forall2
import Transclude.Proofs.Session.Failing

namespace Transclude

/-! ### Tallies -/

namespace Tally

instance : Add Tally := ⟨fun t u => ⟨t.inlined + u.inlined, t.pruned + u.pruned⟩⟩

instance : Zero Tally := ⟨zero⟩

/-- Neither count is lower. -/
instance : LE Tally := ⟨fun t u => t.inlined ≤ u.inlined ∧ t.pruned ≤ u.pruned⟩

theorem add_def (t u : Tally) : t + u = ⟨t.inlined + u.inlined, t.pruned + u.pruned⟩ := rfl

theorem add_assoc (t u v : Tally) : t + u + v = t + (u + v) := by
  simp only [add_def, Nat.add_assoc]

theorem zero_add (t : Tally) : zero + t = t := by
  simp only [add_def, zero, Nat.zero_add]

theorem le_add (t u : Tally) : t ≤ t + u := ⟨Nat.le_add_right _ _, Nat.le_add_right _ _⟩

theorem le_trans {t u v : Tally} (h : t ≤ u) (h' : u ≤ v) : t ≤ v :=
  ⟨Nat.le_trans h.1 h'.1, Nat.le_trans h.2 h'.2⟩

end Tally

/-! ### Work that adds to the tally -/

/-- The result of some work does not depend on the tally it starts from, and the work adds to
    the tally what it would have counted from nothing. -/
def Counting.Adds {α : Type} (work : Counting α) : Prop :=
  ∀ tally, work.run tally = ((work.run .zero).1, tally + (work.run .zero).2)

namespace Counting.Adds

variable {α β : Type}

theorem pure (a : α) : Adds (Pure.pure a : Counting α) := fun _ => rfl

theorem bind {first : Counting α} {next : α → Counting β} (hfirst : Adds first)
    (hnext : ∀ a, Adds (next a)) : Adds (first >>= next) := by
  intro tally
  rw [Result.run_bind, Result.run_bind, hfirst tally]
  rcases first.run .zero with ⟨result, counted⟩
  rcases result with failure | a
  · rfl
  · simp only
    rw [hnext a (tally + counted), hnext a counted, Tally.add_assoc]

end Counting.Adds

namespace Session

section Adding

variable (session : Session) (disk : Disk) (recording : Recording) (file : SourceFile)

theorem adds_act (slot : Option Slot) (n : Node) :
    (act session.program session.marker disk recording file slot n).Adds := by
  intro tally
  unfold act
  split
  · rfl
  · split
    · rfl
    · split <;> rfl

theorem adds_perform (sites : List Site) :
    (Transclude.perform (act session.program session.marker disk recording file) sites).Adds := by
  induction sites with
  | nil => exact .pure _
  | cons s sites ih =>
    rw [perform_cons]
    exact .bind (adds_act session disk recording file s.slot? s.node) fun _ => ih

theorem adds_transformFile :
    (transformFile session.program session.marker disk recording file).Adds := by
  rw [transformFile_eq session]
  exact .bind (adds_perform session disk _ file _) fun _ => .pure _

theorem adds_transformFiles (files : List SourceFile) :
    (transformFiles session.program session.marker disk recording files).Adds := by
  induction files with
  | nil => exact .pure _
  | cons file files ih =>
    rw [transformFiles]
    exact .bind (adds_transformFile session disk recording file) fun _ =>
      .bind ih fun _ => .pure _

end Adding

/-! ### One request -/

/-- A session for the same program and marker that has done nothing yet. -/
def renewed (session : Session) : Session := .start session.program session.marker

/-- The session after some more has been counted. -/
def advanced (session : Session) (tally : Tally) : Session :=
  { session with tally := session.tally + tally }

theorem perform_of_adds {α : Type} (session : Session) {work : Counting α} (h : work.Adds) :
    session.perform work =
      ((session.renewed.perform work).1,
        session.advanced (session.renewed.perform work).2.tally) := by
  rw [perform, h session.tally]
  rfl

theorem transform_eq_fresh (session : Session) (disk : Disk) (recording : Recording)
    (file : SourceFile) :
    session.transform disk recording file =
      ((session.renewed.transform disk recording file).1,
        session.advanced (session.renewed.transform disk recording file).2.tally) :=
  perform_of_adds session (adds_transformFile session disk recording file)

theorem run_eq_fresh (session : Session) (disk : Disk) (recording : Recording) :
    session.run disk recording =
      ((session.renewed.run disk recording).1,
        session.advanced (session.renewed.run disk recording).2.tally) :=
  perform_of_adds session (adds_transformFiles session disk recording session.program.sources)

/-- What a session can be asked for. -/
inductive Task where
  | file (file : SourceFile)
  | sources

/-- A task, with the files that are at hand when it is given. -/
structure Request where
  task : Task
  disk : Disk
  recording : Recording

inductive Answer where
  | file (result : Except Failure Revision)
  | sources (result : Except Failure (List Revision))

/-- Does what is asked for. -/
def serve (session : Session) (request : Request) : Answer × Session :=
  match request.task with
  | .file file =>
    let (result, after) := session.transform request.disk request.recording file
    (.file result, after)
  | .sources =>
    let (result, after) := session.run request.disk request.recording
    (.sources result, after)

/-- **A request is served as by a session that has just been started.** -/
theorem serve_eq_fresh (session : Session) (request : Request) :
    session.serve request =
      ((session.renewed.serve request).1,
        session.advanced (session.renewed.serve request).2.tally) := by
  obtain ⟨task, disk, recording⟩ := request
  cases task with
  | file file =>
    simp only [serve]
    rw [transform_eq_fresh]
  | sources =>
    simp only [serve]
    rw [run_eq_fresh]

/-! ### Transcripts -/

/-- What is asked for in turn, each time in view of all answers so far. -/
abbrev Script := List (List Answer → Request)

/-- A request, its answer and the tally that was shown after it. -/
structure Exchange where
  request : Request
  answer : Answer
  tally : Tally

def transcript : Session → List Answer → Script → List Exchange
  | _, _, [] => []
  | session, answers, next :: script =>
    let (answer, after) := session.serve (next answers)
    ⟨next answers, answer, after.tally⟩ :: transcript after (answers ++ [answer]) script

theorem transcript_cons (session : Session) (answers : List Answer) (next : List Answer → Request)
    (script : Script) :
    transcript session answers (next :: script) =
      ⟨next answers, (session.renewed.serve (next answers)).1,
        session.tally + (session.renewed.serve (next answers)).2.tally⟩
      :: transcript (session.advanced (session.renewed.serve (next answers)).2.tally)
          (answers ++ [(session.renewed.serve (next answers)).1]) script := by
  rw [transcript, serve_eq_fresh]
  rfl

/-- Each answer in a transcript is that of a fresh session, and each tally is the sum of what
    fresh sessions count. -/
theorem exchange_of_transcript (script : Script) (session : Session) (answers : List Answer)
    {before later : List Exchange} {exchange : Exchange}
    (h : transcript session answers script = before ++ exchange :: later) :
    exchange.answer = (session.renewed.serve exchange.request).1
    ∧ exchange.tally = session.tally
        + ((before ++ [exchange]).map fun past =>
            (session.renewed.serve past.request).2.tally).sum := by
  induction script generalizing session answers before with
  | nil =>
    rw [transcript] at h
    exact absurd h (by simp)
  | cons next script ih =>
    rw [transcript_cons] at h
    cases before with
    | nil =>
      obtain ⟨rfl, -⟩ := List.cons.inj h
      exact ⟨rfl, rfl⟩
    | cons first before =>
      obtain ⟨rfl, hrest⟩ := List.cons.inj h
      obtain ⟨hanswer, htally⟩ := ih _ _ hrest
      refine ⟨hanswer, ?_⟩
      rw [htally, List.cons_append, List.map_cons, List.sum_cons, ← Tally.add_assoc]
      rfl

theorem le_tally_of_transcript (script : Script) (session : Session) (answers : List Answer) :
    ∀ exchange ∈ transcript session answers script, session.tally ≤ exchange.tally := by
  induction script generalizing session answers with
  | nil =>
    intro exchange hexchange
    rw [transcript] at hexchange
    exact absurd hexchange List.not_mem_nil
  | cons next script ih =>
    intro exchange hexchange
    rw [transcript_cons] at hexchange
    rcases List.mem_cons.mp hexchange with rfl | hexchange
    · exact Tally.le_add _ _
    · exact Tally.le_trans (Tally.le_add _ _) (ih _ _ exchange hexchange)

theorem pairwise_transcript (script : Script) (session : Session) (answers : List Answer) :
    (transcript session answers script).Pairwise fun earlier later =>
      earlier.tally ≤ later.tally := by
  induction script generalizing session answers with
  | nil =>
    rw [transcript]
    exact .nil
  | cons next script ih =>
    rw [transcript_cons]
    exact .cons (le_tally_of_transcript script _ _) (ih _ _)

/-! ### All sources -/

variable {disk : Disk} {recording : Recording}

/-- Transforms files one by one, each with the session that the one before has left, up to the
    first failure. -/
def transformEach (disk : Disk) (recording : Recording) :
    Session → List SourceFile → Except Failure (List Revision) × Session
  | session, [] => (.ok [], session)
  | session, file :: files =>
    match session.transform disk recording file with
    | (.error failure, after) => (.error failure, after)
    | (.ok out, after) =>
      match transformEach disk recording after files with
      | (.error failure, last) => (.error failure, last)
      | (.ok outs, last) => (.ok (out :: outs), last)

theorem perform_bind {α β : Type} (session : Session) (first : Counting α)
    (next : α → Counting β) :
    session.perform (first >>= next) =
      match session.perform first with
      | (.ok a, after) => after.perform (next a)
      | (.error failure, after) => (.error failure, after) := by
  simp only [perform, Result.run_bind]
  rcases first.run session.tally with ⟨result, tally⟩
  cases result <;> rfl

theorem perform_transformFiles (files : List SourceFile) (session : Session) :
    session.perform (transformFiles session.program session.marker disk recording files) =
      transformEach disk recording session files := by
  induction files generalizing session with
  | nil => rfl
  | cons file files ih =>
    have hfirst : session.perform
        (transformFile session.program session.marker disk recording file) =
          session.transform disk recording file := rfl
    rw [transformFiles, perform_bind, hfirst, transformEach, transform_eq_fresh]
    rcases (session.renewed.transform disk recording file).1 with failure | out
    · rfl
    · have hrest := ih (session.advanced (session.renewed.transform disk recording file).2.tally)
      simp only [advanced] at hrest ⊢
      rw [perform_bind, hrest]
      rcases transformEach disk recording _ files with ⟨result, last⟩
      cases result <;> rfl

/-- Files that are transformed one by one all succeed, or the first that fails ends it. -/
theorem transformEach_cases (files : List SourceFile) (session : Session) :
    (∃ outs after, transformEach disk recording session files = (.ok outs, after)
      ∧ List.Forall₂ (fun file out =>
          (session.renewed.transform disk recording file).1 = .ok out) files outs) ∨
    ∃ before file later failure after, files = before ++ file :: later
      ∧ (∀ earlier ∈ before, ∃ out,
          (session.renewed.transform disk recording earlier).1 = .ok out)
      ∧ (session.renewed.transform disk recording file).1 = .error failure
      ∧ transformEach disk recording session files = (.error failure, after)
      ∧ transformEach disk recording session (before ++ [file]) = (.error failure, after) := by
  induction files generalizing session with
  | nil => exact .inl ⟨[], session, rfl, .nil⟩
  | cons file files ih =>
    have hfresh := transform_eq_fresh session disk recording file
    rcases hfirst : (session.renewed.transform disk recording file).1 with failure | out
    · right
      rw [hfirst] at hfresh
      refine ⟨[], file, files, failure,
        session.advanced (session.renewed.transform disk recording file).2.tally, rfl, ?_, hfirst,
        ?_, ?_⟩
      · intro earlier hearlier
        exact absurd hearlier List.not_mem_nil
      · rw [transformEach, hfresh]
      · rw [List.nil_append, transformEach, hfresh]
    · rw [hfirst] at hfresh
      rcases ih (session.advanced (session.renewed.transform disk recording file).2.tally) with
        ⟨outs, after, hrest, houts⟩ |
        ⟨before, file', later, failure, after, rfl, hbefore, hfailure, hrest, hupto⟩
      · left
        refine ⟨out :: outs, after, ?_, .cons hfirst houts⟩
        rw [transformEach, hfresh]
        simp only [hrest]
      · right
        refine ⟨file :: before, file', later, failure, after, rfl, ?_, hfailure, ?_, ?_⟩
        · intro earlier hearlier
          rcases List.mem_cons.mp hearlier with rfl | hearlier
          · exact ⟨out, hfirst⟩
          · exact hbefore earlier hearlier
        · rw [transformEach, hfresh]
          simp only [hrest]
        · rw [List.cons_append, transformEach, hfresh]
          simp only [hupto]

theorem name_of_transform {session : Session} {file : SourceFile} {out : Revision}
    (h : (session.transform disk recording file).1 = .ok out) : out.file.name = file.name := by
  obtain ⟨-, hout, -⟩ := transform_eq_ok (Prod.ext h rfl)
  rw [hout]
  cases file.root.outcome _ none <;> rfl

/-- How all sources of a program are transformed: one by one, with an output for each if none
    fails, and otherwise up to the first that fails. -/
structure RunsInOrder (session : Session) (disk : Disk) (recording : Recording) : Prop where
  each : session.run disk recording =
    transformEach disk recording session session.program.sources
  succeeds : (∃ outs, (session.run disk recording).1 = .ok outs) ↔
    ∀ file ∈ session.program.sources, ∃ out,
      (session.renewed.transform disk recording file).1 = .ok out
  outputs : ∀ outs, (session.run disk recording).1 = .ok outs →
    List.Forall₂ (fun file out => (session.renewed.transform disk recording file).1 = .ok out
      ∧ out.file.name = file.name) session.program.sources outs
  fails : ∀ failure, (session.run disk recording).1 = .error failure →
    ∃ before file later, session.program.sources = before ++ file :: later
      ∧ (∀ earlier ∈ before, ∃ out,
          (session.renewed.transform disk recording earlier).1 = .ok out)
      ∧ (session.renewed.transform disk recording file).1 = .error failure
      ∧ session.run disk recording = transformEach disk recording session (before ++ [file])

theorem runsInOrder (session : Session) (disk : Disk) (recording : Recording) :
    session.RunsInOrder disk recording := by
  have heach : session.run disk recording =
      transformEach disk recording session session.program.sources :=
    perform_transformFiles session.program.sources session
  rcases transformEach_cases session.program.sources session with
    ⟨outs, after, hall, houts⟩ |
    ⟨before, file, later, failure, after, hsources, hbefore, hfailure, hall, hupto⟩
  · have hrun := heach.trans hall
    refine ⟨heach, ⟨?_, ?_⟩, ?_, ?_⟩
    · intro _
      have hboth := houts.imp fun file out hout => And.intro (Exists.intro out hout) hout
      exact ((List.forall₂_and_left _ _).mp hboth).1
    · intro _
      exact ⟨outs, congrArg Prod.fst hrun⟩
    · intro outs' houts'
      rw [hrun] at houts'
      obtain rfl := Except.ok.inj houts'
      exact houts.imp fun file out hout => ⟨hout, name_of_transform hout⟩
    · intro failure hfailure
      rw [hrun] at hfailure
      cases hfailure
  · have hrun := heach.trans hall
    refine ⟨heach, ⟨?_, ?_⟩, ?_, ?_⟩
    · rintro ⟨outs, houts⟩
      rw [hrun] at houts
      cases houts
    · intro hsucceeds
      obtain ⟨out, hout⟩ := hsucceeds file (by simp [hsources])
      rw [hfailure] at hout
      cases hout
    · intro outs houts
      rw [hrun] at houts
      cases houts
    · intro failure' hfailure'
      rw [hrun] at hfailure'
      obtain rfl := Except.error.inj hfailure'
      exact ⟨before, file, later, hsources, hbefore, hfailure, hrun.trans hupto.symm⟩

/-! ### What a file adds to the tally -/

/-- A file adds to the tally what is rewritten in it, up to the call that fails if one does. -/
def Counts (session : Session) (disk : Disk) (recording : Recording) (file : SourceFile) : Prop :=
  ∃ done rest, file.root.sites [] = done ++ rest
    ∧ (session.renewed.transform disk recording file).2.tally =
        Tally.zero.after session.marker session.program done
    ∧ (∀ s ∈ done, ∀ function cause, s.TopmostCall session.marker session.program function →
        ¬ Expansion.FailsWith disk file s.slot? s.node function cause)
    ∧ (∀ out, (session.renewed.transform disk recording file).1 = .ok out → rest = [])
    ∧ ∀ failure, (session.renewed.transform disk recording file).1 = .error failure →
        ∃ s later function, rest = s :: later
          ∧ s.TopmostCall session.marker session.program function
          ∧ Expansion.FailsWith disk file s.slot? s.node function failure.cause

theorem counts (session : Session) (disk : Disk) (recording : Recording) (file : SourceFile) :
    session.Counts disk recording file := by
  rcases first_failing (recording.enter (.transforming file.name)) (file.root.sites []) with
    hsound | ⟨before, s, later, failure, hsites, hbefore, hfailing⟩
  · have hresult := transform_of_sound session.renewed hsound
    refine ⟨file.root.sites [], [], by simp, by rw [hresult]; rfl, ?_, fun _ _ => rfl, ?_⟩
    · intro s hs function cause hcall
      exact not_failsWith_of_sound (hsound s hs) hcall cause
    · intro failure hfailure
      rw [hresult] at hfailure
      cases hfailure
  · have hresult := transform_of_failing session.renewed hsites hbefore hfailing
    refine ⟨before, s :: later, hsites, by rw [hresult]; rfl, ?_, ?_, ?_⟩
    · intro s' hs' function cause hcall
      exact not_failsWith_of_sound (hbefore s' hs') hcall cause
    · intro out hout
      rw [hresult] at hout
      cases hout
    · intro failure' hfailure'
      rw [hresult] at hfailure'
      obtain rfl := Except.error.inj hfailure'
      obtain ⟨function, cause, hcall, hfails, rfl⟩ := failure?_eq_some_iff.mp hfailing
      exact ⟨s, later, function, rfl, hcall, hfails⟩

/-- **A session has no memory but its tally.**  Whatever is asked for, in view of all answers so
    far: each answer is that of a session that has just been started, the tally after it is the
    sum of what such sessions count, and no count ever goes down.  All sources of the program
    are transformed one by one, up to the first that fails, and each file counts what is
    rewritten in it. -/
theorem transcript_start (program : Program) (marker : Marker) :
    (∀ script before exchange later,
      transcript (start program marker) [] script = before ++ exchange :: later →
        exchange.answer = ((start program marker).serve exchange.request).1
        ∧ exchange.tally = ((before ++ [exchange]).map fun past =>
            ((start program marker).serve past.request).2.tally).sum) ∧
    (∀ script, (transcript (start program marker) [] script).Pairwise fun earlier later =>
      earlier.tally ≤ later.tally) ∧
    ∀ tally disk recording, RunsInOrder ⟨program, marker, tally⟩ disk recording
      ∧ ∀ file, Counts ⟨program, marker, tally⟩ disk recording file := by
  refine ⟨?_, ?_, ?_⟩
  · intro script before exchange later h
    obtain ⟨hanswer, htally⟩ := exchange_of_transcript script _ [] h
    refine ⟨hanswer, htally.trans ?_⟩
    exact Tally.zero_add _
  · intro script
    exact pairwise_transcript script _ []
  · intro tally disk recording
    exact ⟨runsInOrder _ disk recording, fun file => counts _ disk recording file⟩

end Session

end Transclude

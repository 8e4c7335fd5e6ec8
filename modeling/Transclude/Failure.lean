/-
  Transclude/Failure.lean
  =======================
  **What can go wrong with a directive, and how it is reported.**

  A failure is a cause and a trace.  The first line of the trace names the cause;
  the lines below are frames, innermost first.  Frames for the activities in
  progress are there from the start if they are being recorded; later, the place
  in the source that is to blame is put on top of them, indented like the frame
  that was on top before.
-/
import Transclude.Disk
import Transclude.Json.Fault
import Transclude.Json.Value
import Transclude.Source
import Transclude.Text.Blank
import Transclude.Text.Escaped

namespace Transclude

/-! ### Causes -/

inductive Cause where
  /-- The first argument is missing or no string literal. -/
  | invalidArgument (function : String)
  /-- A file is not a JSON document. -/
  | malformedData (path : Path) (fault : Json.Fault)
  /-- A file that is taken apart as an object holds something else; it is named as
      the argument was written. -/
  | typeMismatch (file : String) (found : Json.Shape)
  /-- The marker module declares a function that is no directive. -/
  | unknownFunction (function : String)
  /-- A number that has no finite double near it, by its text. -/
  | unsupportedValue (number : String)
  /-- A file could not be read. -/
  | io (path : Path) (reason : ReadError)
deriving DecidableEq, Repr

namespace Cause

def kind : Cause → String
  | .invalidArgument _ => "InvalidArgument"
  | .malformedData _ _ => "MalformedData"
  | .typeMismatch _ _ => "TypeMismatch"
  | .unknownFunction _ => "UnknownFunction"
  | .unsupportedValue _ => "UnsupportedValue"
  | .io _ _ => "Io"

/-- The message of the fault behind a cause, if there is one. -/
def source? : Cause → Option String
  | .malformedData _ fault => some fault.message
  | .io _ reason => some reason.message
  | _ => none

def message : Cause → String
  | .invalidArgument function =>
    "The first argument of " ++ function ++ " function must be a string literal"
  | .malformedData path fault =>
    path.spelling ++ " does not contain valid JSON: " ++ fault.message
  | .typeMismatch file found =>
    file ++ " does not contain an object as expected, found " ++ found.name
  | .unknownFunction function => "Unknown function: " ++ function
  | .unsupportedValue number =>
    "Unsupported value in JSON object: \"" ++ number ++ "\" (non-finite number)"
  | .io path reason => "failed to read " ++ path.spelling ++ ": " ++ reason.message

/-- The line that opens the trace of a failure. -/
def headline (cause : Cause) : String := cause.kind ++ ": " ++ cause.message

end Cause

/-! ### Activities in progress -/

/-- Where in the text of a program an activity starts, as far as that is known. -/
structure Origin where
  file : Option String := none
  line : Option UInt32 := none
deriving DecidableEq, Repr

/-- What stands at the end of a frame: the origin, if both parts of it are known. -/
def Origin.suffix : Origin → String
  | ⟨some file, some line⟩ => " (" ++ file ++ ":" ++ toString line ++ ")"
  | _ => ""

/-- An activity as it is recorded, of this program or of one that uses it. -/
structure Frame where
  /-- The module that it belongs to. -/
  target : String
  name : String
  /-- The fields with their values, as they are shown. -/
  fields : String
  origin : Origin
deriving DecidableEq, Repr

def Frame.text (frame : Frame) : String :=
  "    at " ++ frame.target ++ "::" ++ frame.name
    ++ (if frame.fields = "" then "" else "\x7b" ++ frame.fields ++ "\x7d")
    ++ frame.origin.suffix

/-- Something that this program is busy with. -/
inductive Activity where
  | inlining (function : String)
  | transforming (file : Path)
deriving DecidableEq, Repr

def Activity.frame (origin : Origin) : Activity → Frame
  | .inlining function => ⟨"inlay::inline", "inline", "function=" ++ Escaped.name function, origin⟩
  | .transforming file => ⟨"inlay::pass", "transform", "file=" ++ file.spelling, origin⟩

/-- What is known of the activities in progress. -/
structure Record where
  /-- Where the activities of this program start. -/
  inlining : Origin := {}
  transforming : Origin := {}
  /-- The frames of all activities in progress, innermost first. -/
  frames : List Frame := []
deriving DecidableEq, Repr

namespace Record

def originOf (record : Record) : Activity → Origin
  | .inlining _ => record.inlining
  | .transforming _ => record.transforming

def enter (record : Record) (activity : Activity) : Record :=
  { record with frames := activity.frame (record.originOf activity) :: record.frames }

end Record

/-- A record of the activities in progress; `none` if none is kept. -/
abbrev Recording := Option Record

namespace Recording

def enter (recording : Recording) (activity : Activity) : Recording :=
  recording.map (·.enter activity)

/-- The frames as a trace shows them. -/
def frames (recording : Recording) : List String :=
  match recording with
  | some record => record.frames.map Frame.text
  | none => []

end Recording

/-! ### Failures -/

structure Failure where
  cause : Cause
  /-- The headline and the frames below it. -/
  trace : List String
deriving DecidableEq, Repr

namespace Failure

/-- A failure as it is raised amid the activities in progress. -/
def raise (recording : Recording) (cause : Cause) : Failure :=
  ⟨cause, cause.headline :: recording.frames⟩

def headline (failure : Failure) : String := failure.trace.head?.getD ""

def frames (failure : Failure) : List String := failure.trace.tail

/-- Puts the place to blame on top of the frames. -/
def blame (failure : Failure) (location : String) : Failure :=
  match failure.trace with
  | [] => failure
  | headline :: frames =>
    let indent := indentation (frames.head?.getD "")
    { failure with trace := headline :: (indent ++ "at " ++ location) :: frames }

/-- Blames a node of a file. -/
def blameNode (failure : Failure) (file : SourceFile) (node : Node) : Failure :=
  failure.blame (file.location node)

end Failure

end Transclude

/-
  Transclude/Session.lean
  =======================
  **Transforming the files of a program.**

  A session replaces every call of a marker function by the literal it stands for
  and drops every import of the marker module.  It counts what it has done, also in
  a file that it could not finish.  The first failure ends the work at hand.
-/
import Transclude.Expansion

namespace Transclude

/-- How many calls and imports have been dealt with. -/
structure Tally where
  inlined : Nat
  pruned : Nat
deriving DecidableEq, Repr

namespace Tally

def zero : Tally := ⟨0, 0⟩

def countCall (t : Tally) : Tally := { t with inlined := t.inlined + 1 }

def countImport (t : Tally) : Tally := { t with pruned := t.pruned + 1 }

end Tally

/-- Work that counts what it does and may fail without forgetting the count. -/
abbrev Counting := ExceptT Failure (StateM Tally)

/-- What the files of a program are transformed by. -/
structure Session where
  program : Program
  marker : Marker
  tally : Tally

namespace Session

/-- The literal for a node that calls a function of the marker module, `none` for any
    other node. -/
def expand? (program : Program) (marker : Marker) (disk : Disk) (recording : Recording)
    (file : SourceFile) (slot : Option Slot) (call : Node) : Except Failure (Option Node) :=
  match marker.functionOf? program call with
  | none => .ok none
  | some function =>
    match Expansion.ofCall disk file function slot call with
    | .ok literal => .ok (some literal)
    | .error cause => .error (.raise (recording.enter (.inlining function)) cause)

/-- Replaces a call of a marker function; a failure is blamed on the call. -/
def visitCall (program : Program) (marker : Marker) (disk : Disk) (recording : Recording)
    (file : SourceFile) : Visitor Counting := fun slot call =>
  match expand? program marker disk recording file slot call with
  | .ok (some literal) => do
    modify Tally.countCall
    return .replace literal
  | .ok none => return .descend
  | .error failure => throw (failure.blameNode file call)

/-- Removes an import of the marker module. -/
def visitImport (program : Program) (marker : Marker) : Visitor Counting := fun _ declaration =>
  if marker.isImported program declaration then do
    modify Tally.countImport
    return .remove
  else return .descend

/-- What is done at each node of a file. -/
def visit (program : Program) (marker : Marker) (disk : Disk) (recording : Recording)
    (file : SourceFile) : Visitor Counting :=
  .byKind (visitCall program marker disk recording file) (visitImport program marker)

def transformFile (program : Program) (marker : Marker) (disk : Disk) (recording : Recording)
    (file : SourceFile) : Counting Revision :=
  file.traverse (visit program marker disk (recording.enter (.transforming file.name)) file)

/-- Transforms files in order, up to the first failure. -/
def transformFiles (program : Program) (marker : Marker) (disk : Disk) (recording : Recording) :
    List SourceFile → Counting (List Revision)
  | [] => return []
  | file :: files => do
    let revision ← transformFile program marker disk recording file
    let revisions ← transformFiles program marker disk recording files
    return revision :: revisions

/-! ### Steps of a session -/

def start (program : Program) (marker : Marker) : Session := ⟨program, marker, .zero⟩

/-- Does some work and goes on with its count. -/
def perform {α : Type} (session : Session) (work : Counting α) : Except Failure α × Session :=
  let (result, tally) := work.run session.tally
  (result, { session with tally := tally })

/-- Transforms one file with the files of `disk` at hand. -/
def transform (session : Session) (disk : Disk) (recording : Recording) (file : SourceFile) :
    Except Failure Revision × Session :=
  session.perform (transformFile session.program session.marker disk recording file)

/-- Transforms all sources of the program. -/
def run (session : Session) (disk : Disk) (recording : Recording) :
    Except Failure (List Revision) × Session :=
  session.perform
    (transformFiles session.program session.marker disk recording session.program.sources)

end Session

end Transclude

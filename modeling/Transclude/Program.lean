/-
  Transclude/Program.lean
  =======================
  **Programs with resolved symbols.**

  Which declaration a call goes to, and which file declares a module, has been
  found out beforehand and recorded under the id of the call or of the module
  specifier.  The latest record for an id counts.
-/
import Transclude.Source

namespace Transclude

/-- What a call goes to: a declared function, which may have no name, in some file. -/
structure Declaration where
  name : Option String
  file : Path
deriving DecidableEq, Repr

structure Program where
  sources : List SourceFile
  /-- What calls go to, latest record first. -/
  calls : List (NodeId × Declaration)
  /-- The files that declare modules, where there is one, latest record first. -/
  modules : List (NodeId × Option Path)

namespace Program

def ofSources (sources : List SourceFile) : Program := ⟨sources, [], []⟩

def bindCall (program : Program) (call : NodeId) (declaration : Declaration) : Program :=
  { program with calls := (call, declaration) :: program.calls }

def bindModule (program : Program) (specifier : NodeId) (file : Option Path) : Program :=
  { program with modules := (specifier, file) :: program.modules }

def declaration? (program : Program) (call : Node) : Option Declaration :=
  program.calls.lookup call.id

def declaringFile? (program : Program) (specifier : Node) : Option Path :=
  (program.modules.lookup specifier.id).join

end Program

end Transclude

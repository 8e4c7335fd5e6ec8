/-
  Transclude/Marker.lean
  ======================
  **The marker module and its directives.**

  One declaration file announces the functions whose calls are to be replaced.
  Calls and imports are recognised by that file and never by the names used where
  they stand, so a function imported under another name is found and a function of
  the same name from elsewhere is left alone.
-/
import Transclude.Program
import Transclude.Tree.Parts

namespace Transclude

/-- The declaration file whose functions are directives. -/
structure Marker where
  path : Path
deriving DecidableEq, Repr

namespace Marker

/-- The declaration file of a package directory. -/
def inDirectory (directory : Path) : Marker := ⟨directory.join ⟨"index.d.ts"⟩⟩

/-- Whether a file is the marker module, however it is spelled. -/
def declares (marker : Marker) (file : Path) : Bool := file.same marker.path

/-- The name under which the function that a node calls is declared, if it is a
    function of the marker module and has a name. -/
def functionOf? (marker : Marker) (program : Program) (call : Node) : Option String :=
  match program.declaration? call with
  | some declaration => if marker.declares declaration.file then declaration.name else none
  | none => none

/-- Whether an import brings names of the marker module into scope. -/
def isImported (marker : Marker) (program : Program) (declaration : Node) : Bool :=
  declaration.importClause?.any Node.bindsNames
    && (declaration.moduleSpecifier?.bind program.declaringFile?).any marker.declares

end Marker

/-- What a function of the marker module asks for. -/
inductive Directive where
  /-- The text of a file, as a string. -/
  | file
  /-- The value that a JSON file denotes. -/
  | json
deriving DecidableEq, Repr

namespace Directive

/-- The name under which the marker module declares a directive. -/
def name : Directive → String
  | .file => "$INLINE_FILE"
  | .json => "$INLINE_JSON"

def ofName? (name : String) : Option Directive :=
  if name = Directive.file.name then some .file
  else if name = Directive.json.name then some .json
  else none

end Directive

end Transclude

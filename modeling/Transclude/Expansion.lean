/-
  Transclude/Expansion.lean
  =========================
  **The literal that a directive stands for.**

  The argument of a directive names a file as seen from the directory of the
  calling file.  The file is read before the function is looked up, so a function
  that is no directive is reported only if its file could be read.
-/
import Transclude.Destructuring
import Transclude.Json.Reader
import Transclude.Literal
import Transclude.Marker
import Transclude.Text.Utf8

namespace Transclude.Expansion

/-- The file that the argument of a call names. -/
def argument? (call : Node) : Option String := call.arguments.head?.bind Node.string?

/-- The part of a value that is left under the pattern that takes it apart, if any.
    `null` passes: taking it apart is the script's own error. -/
def narrow (argument : String) : Option Pattern → Json.Value → Except Cause Json.Value
  | none, value => .ok value
  | some pattern, .object members => .ok (.object (pattern.restrict members))
  | some _, .null => .ok .null
  | some _, value => .error (.typeMismatch argument value.shape)

/-- The literal for the content of a JSON file. -/
def ofJson (argument : String) (path : Path) (pattern : Option Pattern) (content : String) :
    Except Cause Node := do
  let value ← (Json.decode content).mapError (.malformedData path)
  Literal.ofValue (← narrow argument pattern value)

/-- The literal that a call of the named function stands for. -/
def ofCall (disk : Disk) (file : SourceFile) (function : String) (slot : Option Slot)
    (call : Node) : Except Cause Node :=
  match argument? call with
  | none => .error (.invalidArgument function)
  | some argument => do
    let path := file.directory.join ⟨argument⟩
    let content := Utf8.lossy (← (disk.read path).mapError (.io path))
    match Directive.ofName? function with
    | some .file => return Literal.string content
    | some .json => ofJson argument path (Pattern.ofSlot? slot) content
    | none => throw (.unknownFunction function)

end Transclude.Expansion

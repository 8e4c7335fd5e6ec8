/-
  Transclude/Settings.lean
  ========================
  **Which file is the marker module.**

  The marker module is given as a path, as the directory of a package, or by a
  settings document with one key, `marker-module`.  A path in a document that was
  loaded from a file is seen from the directory of that file.  Where several ways are
  given the last one counts, but each of them has to be in order.
-/
import Transclude.Decimal.Shortest
import Transclude.Disk
import Transclude.Marker
import Transclude.Text.Utf8
import Transclude.Toml.Printer
import Transclude.Toml.Reader

namespace Transclude

/-! ### What can be wrong with settings -/

/-- What is wrong with a settings document. -/
inductive DocumentFault where
  /-- The document does not follow the grammar, or sets a key twice. -/
  | malformed
  | unknownField (key : String)
  /-- A value is of another type than a path, by its description. -/
  | invalidType (found : String)
  | missingField
deriving DecidableEq, Repr

namespace DocumentFault

/-- A malformed document is reported by the name of its format alone. -/
def message : DocumentFault → String
  | .malformed => "toml"
  | .unknownField key => "unknown field `" ++ key ++ "`, expected `marker-module`"
  | .invalidType found => "invalid type: " ++ found ++ ", expected path string"
  | .missingField => "missing field `marker-module`"

end DocumentFault

inductive SettingsError where
  | unreadable (path : Path) (reason : ReadError)
  /-- A document that was given as a text is wrong. -/
  | invalid (fault : DocumentFault)
  /-- A document that was loaded from a file is wrong. -/
  | unloadable (path : Path) (fault : DocumentFault)
  | noMarker
deriving DecidableEq, Repr

/-- The messages of an error, outermost first. -/
def SettingsError.chain : SettingsError → List String
  | .unreadable path reason => ["failed to read " ++ path.spelling, reason.message]
  | .invalid fault => ["invalid inlay configuration", fault.message]
  | .unloadable path fault =>
    ["failed to load " ++ path.spelling, "invalid inlay configuration", fault.message]
  | .noMarker => ["no marker module configured"]

/-! ### Documents -/

namespace Settings

/-- The key of a settings document. -/
def markerKey : String := "marker-module"

/-- How a floating-point number is shown. -/
def showFloat : Toml.Float → String
  | .finite number => Decimal.showNearest number
  | .infinite false => "inf"
  | .infinite true => "-inf"
  | .nan => "NaN"

/-- The path that a value is, or what it is instead. -/
def pathOf : Toml.Value → Except DocumentFault Path
  | .string text => .ok ⟨text⟩
  | .integer n => .error (.invalidType ("integer `" ++ toString n ++ "`"))
  | .float x => .error (.invalidType ("floating point `" ++ showFloat x ++ "`"))
  | .boolean b => .error (.invalidType ("boolean `" ++ toString b ++ "`"))
  | .array _ => .error (.invalidType "sequence")
  | .tables _ => .error (.invalidType "sequence")
  | .datetime => .error (.invalidType "map")
  | .table _ _ => .error (.invalidType "map")

/-- Checks the entries in order; the first one that is wrong decides. -/
def markerOfEntries (found : Option Path) : Toml.Entries → Except DocumentFault Marker
  | [] =>
    match found with
    | some path => .ok ⟨path⟩
    | none => .error .missingField
  | (key, value) :: entries =>
    if key = markerKey then do
      markerOfEntries (some (← pathOf value)) entries
    else .error (.unknownField key)

/-- The marker module that a document sets. -/
def markerOfText (text : String) : Except DocumentFault Marker :=
  match Toml.decode? text with
  | some entries => markerOfEntries none entries
  | none => .error .malformed

/-- What is said of a file that is no text. -/
def notText : ReadError := .other "stream did not contain valid UTF-8"

/-- The marker module that a document on the disk sets. -/
def load (disk : Disk) (path : Path) : Except SettingsError Marker := do
  let bytes ← (disk.read path).mapError (.unreadable path)
  match Utf8.decode? bytes with
  | none => throw (.unreadable path notText)
  | some text => do
    let marker ← (markerOfText text).mapError (.unloadable path)
    match path.parent? with
    | some directory => return ⟨directory.join marker.path⟩
    | none => return marker

/-- The document that sets a marker module. -/
def textOf (marker : Marker) : String :=
  markerKey ++ " = " ++ Toml.printString marker.path.spelling ++ "\n"

end Settings

/-! ### Ways to give the marker module -/

/-- A way to give the marker module. -/
inductive MarkerSource where
  | path (name : Path)
  | directory (name : Path)
  /-- A settings document. -/
  | text (document : String)
  /-- A settings document on the disk. -/
  | file (name : Path)
deriving DecidableEq, Repr

def MarkerSource.marker (disk : Disk) : MarkerSource → Except SettingsError Marker
  | .path name => .ok ⟨name⟩
  | .directory name => .ok (.inDirectory name)
  | .text document => (Settings.markerOfText document).mapError .invalid
  | .file name => Settings.load disk name

namespace Marker

/-- The marker module that is given last, after all ways before it were tried. -/
def ofSources (disk : Disk) (sources : List MarkerSource) : Except SettingsError Marker := do
  let markers ← sources.mapM (MarkerSource.marker disk)
  match markers.getLast? with
  | some marker => return marker
  | none => throw .noMarker

end Marker

end Transclude

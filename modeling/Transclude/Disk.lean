/-
  Transclude/Disk.lean
  ====================
  **The files within reach of a run.**

  A disk holds files and directories below a root, and one of the directories is the
  working directory.  Absolute paths start at the root and all others at the working
  directory.  Names are followed piece by piece, and every piece but the last is
  followed from an existing directory: also before a `..`, and also where the piece
  that follows is empty or a `.`.  A path that is too long as a whole is not followed
  at all.
-/
import Transclude.Path

namespace Transclude

/-- Why a file could not be read. -/
inductive ReadError where
  | missing
  | notADirectory
  | isADirectory
  | nameTooLong
  | nulInName
  /-- A reason given by the host, in its own words. -/
  | other (text : String)
deriving DecidableEq, Repr

def ReadError.message : ReadError → String
  | .missing => "No such file or directory (os error 2)"
  | .notADirectory => "Not a directory (os error 20)"
  | .isADirectory => "Is a directory (os error 21)"
  | .nameTooLong => "File name too long (os error 36)"
  | .nulInName => "file name contained an unexpected NUL byte"
  | .other text => text

/-- A place on a disk, whether there is anything or not. -/
structure Place where
  /-- The names that lead to it from the root, innermost first. -/
  names : List String
deriving DecidableEq, Repr

namespace Place

def root : Place := ⟨[]⟩

/-- The place above, which for the root is the root. -/
def up (place : Place) : Place := ⟨place.names.tail⟩

def down (place : Place) (name : String) : Place := ⟨name :: place.names⟩

/-- The place one piece further on. -/
def along (place : Place) (piece : List Char) : Place :=
  if Path.isIdle piece then place
  else if piece = ['.', '.'] then place.up
  else place.down (String.ofList piece)

/-- Whether a place is on the way from the root to another, or is that other place. -/
def leadsTo (place other : Place) : Bool := place.names.isSuffixOf other.names

end Place

/-- What stands at a place. -/
inductive Holding where
  | directory
  | file (content : List UInt8)
deriving DecidableEq, Repr

structure Disk where
  /-- What stands where, latest entry first. -/
  entries : List (Place × Holding)
  /-- Where relative paths start.  It is a directory, and so are those above it. -/
  workingDirectory : Place
deriving Repr

namespace Disk

/-- A disk that holds nothing, with the root as working directory. -/
def empty : Disk := ⟨[], .root⟩

def lookup (disk : Disk) (place : Place) : Option Holding :=
  if place.leadsTo disk.workingDirectory then some .directory else disk.entries.lookup place

/-! ### Reading -/

/-- The longest name of a file, in bytes. -/
def nameLimit : Nat := 255

/-- The longest path, in bytes. -/
def pathLimit : Nat := 4095

/-- Follows one piece of a path from a place, which has to be a directory. -/
def follow (disk : Disk) (place : Place) (piece : List Char) : Except ReadError Place :=
  match disk.lookup place with
  | some .directory =>
    if Path.isIdle piece then .ok place
    else if piece = ['.', '.'] then .ok place.up
    else
      let name := String.ofList piece
      if nameLimit < name.utf8ByteSize then .error .nameTooLong
      else if (disk.lookup (place.down name)).isSome then .ok (place.down name)
      else .error .missing
  | some (.file _) => .error .notADirectory
  | none => .error .missing

/-- Where a path starts. -/
def startOf (disk : Disk) (path : Path) : Place :=
  if path.isAbsolute then .root else disk.workingDirectory

/-- The place that a path names, which has to exist. -/
def resolve (disk : Disk) (path : Path) : Except ReadError Place :=
  if path.spelling.toList.contains '\x00' then .error .nulInName
  else if pathLimit < path.spelling.utf8ByteSize then .error .nameTooLong
  else if path.spelling = "" then .error .missing
  else path.pieces.foldlM disk.follow (disk.startOf path)

/-- The content of the file that a path names. -/
def read (disk : Disk) (path : Path) : Except ReadError (List UInt8) := do
  let place ← disk.resolve path
  match disk.lookup place with
  | some (.file content) => .ok content
  | some .directory => .error .isADirectory
  | none => .error .missing

/-! ### Writing -/

def put (disk : Disk) (place : Place) (holding : Holding) : Disk :=
  { disk with entries := (place, holding) :: disk.entries }

/-- Makes sure that there is something at a place, by default a directory. -/
def ensureDirectory (disk : Disk) (place : Place) : Disk :=
  { disk with
    entries := if (disk.lookup place).isSome then disk.entries
      else (place, .directory) :: disk.entries }

def makeDirectories (disk : Disk) (place : Place) : List (List Char) → Disk × Place
  | [] => (disk, place)
  | piece :: rest =>
    makeDirectories (disk.ensureDirectory (place.along piece)) (place.along piece) rest

/-- Makes the directory that a path names, with all directories on the way. -/
def createDirectory (disk : Disk) (path : Path) : Disk :=
  (disk.makeDirectories (disk.startOf path) path.pieces).1

/-- Writes a file, with all directories on the way to it. -/
def write (disk : Disk) (path : Path) (content : List UInt8) : Disk :=
  let way := disk.makeDirectories (disk.startOf path) path.pieces.dropLast
  way.1.put (way.2.along (path.pieces.getLast?.getD [])) (.file content)

/-- Takes away what a path names, if there is anything. -/
def remove (disk : Disk) (path : Path) : Disk :=
  match disk.resolve path with
  | .ok place => { disk with entries := disk.entries.filter (·.1 ≠ place) }
  | .error _ => disk

end Disk

end Transclude

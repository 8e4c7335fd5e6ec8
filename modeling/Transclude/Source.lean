/-
  Transclude/Source.lean
  ======================
  **Source files.**

  A file has a name, the text it was read from, and a tree.  Only the tree
  is ever changed, so positions are always those of the text that was read.
-/
import Transclude.Path
import Transclude.Text.LineIndex
import Transclude.Tree.Traversal

namespace Transclude

structure SourceFile where
  name : Path
  text : String
  root : Node

/-- A file after its tree has been gone through. -/
structure Revision where
  file : SourceFile
  /-- Whether the tree is still the one that was there before. -/
  untouched : Bool

namespace SourceFile

/-- The file with a given tree, whose root has to be of the right kind. -/
def ofRoot (name : Path) (text : String) (root : Node) : Except Violation SourceFile :=
  if root.kind = .sourceFile then .ok ⟨name, text, root⟩ else .error .rootNotSourceFile

def withRoot (file : SourceFile) (root : Node) : SourceFile := { file with root := root }

/-- The directory that the file is in. -/
def directory (file : SourceFile) : Path := file.name.parent?.getD ⟨""⟩

/-- The position of an offset by the index of the lines.  A lookup without a result, which only
    a text of 2³² bytes or more can have, stops the program: no position is found for it, and
    the origin stands in its place. -/
def position (file : SourceFile) (offset : UInt32) : Position :=
  (LineIndex.lookup? file.text offset).getD .origin

/-- The name of the file with the line and column at which a node starts, from one. -/
def location (file : SourceFile) (node : Node) : String :=
  let position := file.position node.span.lo
  file.name.spelling ++ ":" ++ toString (position.line + 1) ++ ":"
    ++ toString (position.column + 1)

/-- The file by what became of its root.  A root cannot go away: if it is removed, an
    empty file is left. -/
def revise (file : SourceFile) : Outcome → Revision
  | .kept => ⟨file, true⟩
  | .changed root => ⟨file.withRoot root, false⟩
  | .removed => ⟨file.withRoot (file.root.withChildren []), false⟩

/-- Goes through the tree of a file and changes it as a visitor says. -/
def traverse {m : Type → Type} [Monad m] (file : SourceFile) (visit : Visitor m) : m Revision := do
  let outcome ← file.root.traverse visit none
  pure (file.revise outcome)

end SourceFile

end Transclude

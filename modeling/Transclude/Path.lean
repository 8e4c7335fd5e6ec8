/-
  Transclude/Path.lean
  ====================
  **Paths and their spellings.**

  A path is kept as it was spelled, since that is how it is shown.  What it means
  is its list of components: the pieces between its slashes, without the empty
  pieces and without `.`, except that a leading slash is the root and a leading
  `.` is kept.  Two spellings name the same path when their components agree.

  `parent?` and `join` work on spellings and change as little as they can.
-/

namespace Transclude

structure Path where
  spelling : String
deriving DecidableEq, Repr

namespace Path

inductive Component where
  | root
  /-- A `.` at the start. -/
  | here
  /-- A `..`, wherever it stands. -/
  | up
  | name (text : String)
deriving DecidableEq, Repr

/-! ### Pieces -/

/-- Cuts a spelling at its slashes. -/
def cut : List Char → List (List Char)
  | [] => [[]]
  | c :: rest =>
    if c = '/' then [] :: cut rest
    else
      match cut rest with
      | [] => [[c]]
      | piece :: pieces => (c :: piece) :: pieces

/-- Puts slashes between pieces. -/
def spell (pieces : List (List Char)) : List Char := List.intercalate ['/'] pieces

/-- Pieces that add nothing to the path before them. -/
def isIdle (piece : List Char) : Bool := piece == [] || piece == ['.']

/-- Drops the idle pieces at the end. -/
def trim (pieces : List (List Char)) : List (List Char) :=
  (pieces.reverse.dropWhile isIdle).reverse

/-- How a path starts. -/
inductive Lead where
  | root
  | here
  | plain
deriving DecidableEq, Repr

/-- A first piece that is empty and followed by another stands before a leading slash. -/
def lead : List (List Char) → Lead
  | [] :: _ :: _ => .root
  | ['.'] :: _ => .here
  | _ => .plain

/-! ### Components -/

def Lead.components : Lead → List Component
  | .root => [.root]
  | .here => [.here]
  | .plain => []

def component? (piece : List Char) : Option Component :=
  if isIdle piece then none
  else if piece = ['.', '.'] then some .up
  else some (.name (String.ofList piece))

def pieces (p : Path) : List (List Char) := cut p.spelling.toList

def components (p : Path) : List Component :=
  (lead p.pieces).components ++ p.pieces.filterMap component?

/-- Whether two spellings name the same path. -/
def same (p q : Path) : Bool := decide (p.components = q.components)

/-! ### Moving around -/

def ofChars (spelling : List Char) : Path := ⟨String.ofList spelling⟩

/-- The path without its last component; the root and the empty path have no parent. -/
def parent? (p : Path) : Option Path :=
  match lead p.pieces with
  | .root =>
    match trim p.pieces.tail with
    | [] => none
    | body => some (ofChars ('/' :: spell (trim body.dropLast)))
  | .here =>
    match trim p.pieces.tail with
    | [] => some ⟨""⟩
    | body => some (ofChars (spell (['.'] :: trim body.dropLast)))
  | .plain =>
    match trim p.pieces with
    | [] => none
    | body => some (ofChars (spell (trim body.dropLast)))

def isAbsolute (p : Path) : Bool := p.spelling.toList.head? == some '/'

/-- The path that `x` names as seen from `base`. -/
def join (base x : Path) : Path :=
  if x.isAbsolute then x
  else if base.spelling = "" || base.spelling.toList.getLast? == some '/' then
    ⟨base.spelling ++ x.spelling⟩
  else ⟨base.spelling ++ "/" ++ x.spelling⟩

end Path

end Transclude

/-
  Transclude/Toml/Reader.lean
  ===========================
  **Settings documents: keys, values and lines.**

  A document is read line by line: a line is empty, opens a table, or adds an entry to
  the table that was opened last.  The readers of values and of their items take a
  number of steps as an argument, of which there are always enough; values may be nested
  seventy-nine deep.
-/
import Transclude.Toml.Scalar

namespace Transclude.Toml

/-! ### Keys -/

def isBareKeyChar (c : Char) : Bool := c.isAlphanum || c == '_' || c == '-'

/-- Reads one part of a key: a bare word or a string on one line. -/
def readKeyPart : List Char → Option (String × List Char)
  | '"' :: rest => (readBasic rest).map fun (key, rest) => (String.ofList key, rest)
  | '\'' :: rest => (readLiteral rest).map fun (key, rest) => (String.ofList key, rest)
  | chars =>
    match chars.takeWhile isBareKeyChar with
    | [] => none
    | key => some (String.ofList key, chars.dropWhile isBareKeyChar)

/-- A key: the parts before the last one, and the last one. -/
structure Key where
  path : List String
  last : String
deriving DecidableEq, Repr

/-- The longest key, in parts. -/
def keyLimit : Nat := 79

/-- Reads a key of at most so many parts, with the space around it. -/
def readKeyParts : Nat → List Char → Option (Key × List Char)
  | 0, _ => none
  | steps + 1, chars => do
    let (part, rest) ← readKeyPart (skipSpace chars)
    match skipSpace rest with
    | '.' :: rest => do
      let (key, rest) ← readKeyParts steps rest
      return (⟨part :: key.path, key.last⟩, rest)
    | rest => some (⟨[], part⟩, rest)

def readKey (chars : List Char) : Option (Key × List Char) := readKeyParts keyLimit chars

/-! ### Values -/

/-- How deep values may be nested. -/
def nestingLimit : Nat := 79

mutual

/-- Reads a value, in which values are nested at most `depth` deep. -/
def readValue : Nat → Nat → List Char → Option (Value × List Char)
  | 0, _, _ => none
  | steps + 1, depth, '[' :: rest =>
    if depth = 0 then none
    else do
      let (items, rest) ← readItems steps (depth - 1) rest
      return (.array items, rest)
  | steps + 1, depth, '\x7b' :: rest =>
    if depth = 0 then none
    else
      match skipSpace rest with
      | '\x7d' :: rest => some (.table .braced [], rest)
      | rest => do
        let (entries, rest) ← readEntries steps (depth - 1) [] rest
        return (.table .braced entries, rest)
  | _ + 1, _, chars =>
    if chars.head? = some '"' ∨ chars.head? = some '\'' then
      (readString chars).map fun (text, rest) => (.string (String.ofList text), rest)
    else readWord chars

/-- Reads the items of an array up to its closing bracket. -/
def readItems : Nat → Nat → List Char → Option (List Value × List Char)
  | 0, _, _ => none
  | steps + 1, depth, chars => do
    match ← skipLines false chars with
    | ']' :: rest => some ([], rest)
    | chars => do
      let (item, rest) ← readValue steps depth chars
      match ← skipLines false rest with
      | ']' :: rest => some ([item], rest)
      | ',' :: rest => do
        let (items, rest) ← readItems steps depth rest
        return (item :: items, rest)
      | _ => none

/-- Reads entries between braces, adding them to those before. -/
def readEntries : Nat → Nat → Entries → List Char → Option (Entries × List Char)
  | 0, _, _, _ => none
  | steps + 1, depth, entries, chars => do
    let (key, rest) ← readKey chars
    match rest with
    | '=' :: rest => do
      let (value, rest) ← readValue steps depth (skipSpace rest)
      let entries ← entries.insert .headed key.path key.last value
      match skipSpace rest with
      | '\x7d' :: rest => some (entries, rest)
      | ',' :: rest => readEntries steps depth entries rest
      | _ => none
    | _ => none

end

/-! ### Documents -/

/-- A document in the making: its entries and the path of the table opened last. -/
structure Draft where
  entries : Entries
  header : List String

/-- Reads a line that opens a table or the next one of an array of tables. -/
def readHeader (draft : Draft) : List Char → Option (Draft × List Char)
  | '[' :: '[' :: rest => do
    let (key, rest) ← readKey rest
    match rest with
    | ']' :: ']' :: rest => do
      let entries ← draft.entries.openNext key.path key.last
      return (⟨entries, key.path ++ [key.last]⟩, ← endLine rest)
    | _ => none
  | '[' :: rest => do
    let (key, rest) ← readKey rest
    match rest with
    | ']' :: rest => do
      let entries ← draft.entries.openTable key.path key.last
      return (⟨entries, key.path ++ [key.last]⟩, ← endLine rest)
    | _ => none
  | _ => none

/-- Reads a line that adds an entry. -/
def readEntry (draft : Draft) (chars : List Char) : Option (Draft × List Char) := do
  let (key, rest) ← readKey chars
  match rest with
  | '=' :: rest => do
    let (value, rest) ← readValue (2 * rest.length + 2) nestingLimit (skipSpace rest)
    let entries ← draft.entries.insertAt draft.header key.path key.last value
    return (⟨entries, draft.header⟩, ← endLine rest)
  | _ => none

/-- Reads the lines of a document. -/
def readLines : Nat → Draft → List Char → Option Entries
  | 0, _, _ => none
  | steps + 1, draft, chars =>
    match skipSpace chars with
    | [] => some draft.entries
    | '[' :: rest => do
      let (draft, rest) ← readHeader draft ('[' :: rest)
      readLines steps draft rest
    | rest =>
      match endLine rest with
      | some rest => readLines steps draft rest
      | none => do
        let (draft, rest) ← readEntry draft rest
        readLines steps draft rest

/-- The entries of a document, in the order in which they were written.  A mark of byte
    order at its start does not count. -/
def decode? (text : String) : Option Entries :=
  let chars := text.toList
  let chars := if chars.head? = some '﻿' then chars.tail else chars
  readLines (chars.length + 1) ⟨[], []⟩ chars

end Transclude.Toml

/-
  Transclude/Toml/Value.lean
  ==========================
  **Settings documents: values and tables.**

  A table is a list of entries in the order in which they were written.  How a
  table came about decides what may still be added to it: one that was only implied
  by a longer header may get a header of its own, one that was written out by a
  header or between braces is complete, and one that came about through dotted keys
  may be extended by further dotted keys.
-/
import Transclude.Json.Number

namespace Transclude.Toml

/-- How a table came about. -/
inductive Origin where
  /-- By its own header, or as the document itself. -/
  | headed
  /-- By the header of a table further down. -/
  | implied
  /-- By a dotted key. -/
  | dotted
  /-- Between braces. -/
  | braced
deriving DecidableEq, Repr

inductive Float where
  | finite (number : Json.Number)
  | infinite (negative : Bool)
  | nan
deriving DecidableEq, Repr

inductive Value where
  | string (text : String)
  | integer (value : Int)
  | float (value : Float)
  | boolean (value : Bool)
  | datetime
  | array (items : List Value)
  | table (origin : Origin) (entries : List (String × Value))
  /-- The tables written one by one under headers in double brackets. -/
  | tables (elements : List (List (String × Value)))

abbrev Entries := List (String × Value)

namespace Entries

/-- Puts a new value at the place of an entry. -/
def set (entries : Entries) (key : String) (value : Value) : Entries :=
  entries.map fun entry => if entry.1 = key then (key, value) else entry

def erase (entries : Entries) (key : String) : Entries :=
  entries.filter fun entry => entry.1 != key

def push (entries : Entries) (key : String) (value : Value) : Entries := entries ++ [(key, value)]

/-! ### Finding the way -/

/-- Works on the table at the end of a path of keys.  Tables that are not there yet are
    made on the way, with the origin that the path gives them.  Of an array of tables
    the last one is meant.  A dotted key does not lead into a table that has a header. -/
def within (made : Origin) (work : Origin → Entries → Option Entries) :
    List String → Origin → Entries → Option Entries
  | [], origin, entries => work origin entries
  | key :: path, _, entries =>
    match entries.lookup key with
    | none => do
      let inner ← within made work path made []
      return entries.push key (.table made inner)
    | some (.table origin inner) =>
      if origin = .braced ∨ (made = .dotted ∧ origin = .headed) then none
      else do
        let inner ← within made work path origin inner
        return entries.set key (.table origin inner)
    | some (.tables elements) => do
      let inner ← within made work path .headed (← elements.getLast?)
      return entries.set key (.tables (elements.dropLast ++ [inner]))
    | some _ => none

/-- Adds an entry under a dotted key, of which no part may be complete. -/
def insert (origin : Origin) (entries : Entries) (path : List String) (key : String)
    (value : Value) : Option Entries :=
  within .dotted (fun origin entries =>
    if decide (origin = .dotted) = path.isEmpty then none
    else if (entries.lookup key).isSome then none
    else some (entries.push key value)) path origin entries

/-- Opens the table of a header.  One that was implied so far takes its place now. -/
def openTable (entries : Entries) (path : List String) (key : String) : Option Entries :=
  within .implied (fun _ entries =>
    match entries.lookup key with
    | none => some (entries.push key (.table .headed []))
    | some (.table .implied inner) => some ((entries.erase key).push key (.table .headed inner))
    | some _ => none) path .headed entries

/-- Opens the next table of an array of tables. -/
def openNext (entries : Entries) (path : List String) (key : String) : Option Entries :=
  within .implied (fun _ entries =>
    match entries.lookup key with
    | none => some (entries.push key (.tables [[]]))
    | some (.tables elements) => some (entries.set key (.tables (elements ++ [[]])))
    | some _ => none) path .headed entries

/-- Adds an entry to the table that was opened last. -/
def insertAt (entries : Entries) (header : List String) (path : List String) (key : String)
    (value : Value) : Option Entries :=
  within .implied (fun origin entries => insert origin entries path key value) header .headed
    entries

end Entries

end Transclude.Toml

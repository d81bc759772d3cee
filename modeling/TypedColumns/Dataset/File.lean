import TypedColumns.Memory.Arena
import TypedColumns.Schema.Basic

/-!
# Dataset files

A file holds a schema, the memory in which its objects lie, and its rows.  A row tells where the object of each node
is.  Beside its own rows a file can hold tables of rows for secondary sources.

* `Row`, `Row.find?` -- where the objects of a row are.
* `File`, `File.table?` -- a file, and the table of a secondary source if it has one.
* `locateRow` -- which file of a chain holds an entry, and at which of its rows.
-/

namespace TypedColumns

/-- Where the object of each node of a row is, by the name of the node. -/
structure Row where
  objects : List (String × Address)
deriving DecidableEq, Repr

/-- Where the object of a node is. -/
def Row.find? (r : Row) (node : String) : Option Address := r.objects.lookup node

/-- A file of a dataset; each secondary row is given with its source. -/
structure File where
  name : String
  schema : Schema
  arena : Arena
  rows : List Row
  secondary : List (SourceId × Row)

namespace File

/-- The number of rows. -/
def size (f : File) : Nat := f.rows.length

/-- The table of a secondary source, if the file holds any row for it. -/
def table? (f : File) (source : SourceId) : Option (List Row) :=
  match (f.secondary.filter (fun entry => entry.1 == source)).map Prod.snd with
  | [] => none
  | rows => some rows

end File

/-- The position of the file that holds an entry, counted from `first`, and the row of the entry in it. -/
def locateRow : List File → Nat → Nat → Option (Nat × Nat)
  | [], _, _ => none
  | f :: fs, first, entry =>
    if entry < f.size then some (first, entry) else locateRow fs (first + 1) (entry - f.size)

/-- The number of rows of a chain of files. -/
def totalSize (files : List File) : Nat := files.foldr (fun f n => f.size + n) 0

theorem locateRow_isSome_iff (files : List File) (first entry : Nat) :
    (locateRow files first entry).isSome = true ↔ entry < totalSize files := by
  induction files generalizing first entry with
  | nil => simp [locateRow, totalSize]
  | cons f fs ih =>
      unfold locateRow
      simp only [totalSize, List.foldr_cons]
      split
      · rename_i h
        simp only [Option.isSome_some, true_iff]
        omega
      · rename_i h
        rw [ih, totalSize]
        omega

end TypedColumns

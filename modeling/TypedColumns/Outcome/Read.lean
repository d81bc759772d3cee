import TypedColumns.Memory.Address

/-!
# Outcomes of a read

* `ReadError` -- why the object of a column cannot be had on the current row, with `ReadError.message`.
* `ReadStatus` -- what became of the last attempt to read a column.
-/

namespace TypedColumns

/-- Why the object of a column cannot be had on the current row. -/
inductive ReadError where
  /-- The cursor failed to load a node. -/
  | load (node reason : String)
  /-- The row holds no object for the node. -/
  | noData (node : String)
  /-- The node belongs to a schema that is not the current one. -/
  | staleNode
  /-- The object is there, but memory could not be followed to the value. -/
  | memory (cause : MemoryError)
deriving DecidableEq, Repr

/-- The text of a read error. -/
def ReadError.message : ReadError → String
  | .load node reason => s!"failed to load node {node} for the current row: {reason}"
  | .noData node => s!"node {node} has no data for the current row"
  | .staleNode => "node handle is not part of the current schema"
  | .memory cause => s!"memory access failed: {cause.message}"

/-- What became of the last attempt to read a column. -/
inductive ReadStatus where
  | notYetRead
  | success
  | error
deriving DecidableEq, Repr

/-- A result of reading memory, as a result of reading a column. -/
def readMemory (r : Except MemoryError α) : Except ReadError α :=
  match r with
  | .ok a => .ok a
  | .error e => .error (.memory e)

end TypedColumns

import TypedColumns.Memory.Image
import TypedColumns.Outcome.Read
import TypedColumns.Registry.Basic
import TypedColumns.Schema.Basic
import TypedColumns.Types.Catalog

/-!
# Row cursors

A row cursor stands on one row of a dataset at a time and loads the objects of that row on demand.  Columns see a
cursor only through its answers, which may be any; its state changes only when a node is loaded.

* `EntryStatus` -- where a cursor stands.
* `RowCursor` -- the answers of a cursor whose states are of type `σ`.
* `RowCursor.loadAll` -- loading some nodes one after the other, up to the first that fails.
-/

namespace TypedColumns

/-- Where a cursor stands. -/
inductive EntryStatus where
  /-- On a row. -/
  | valid
  /-- Nowhere yet. -/
  | notLoaded
  /-- Behind the last row. -/
  | beyondEnd
  /-- On a row for which an indexed source has none. -/
  | indexedJoinNoMatch
deriving DecidableEq, Repr

/-- The answers of a cursor, given its state. -/
structure RowCursor (σ : Type) where
  schema : σ → Option Schema
  types : σ → Catalog
  image : σ → Image
  registry : σ → Registry
  generation : σ → Generation
  status : σ → EntryStatus
  activeRow : σ → SourceId → Option UInt64
  hasDirector : σ → SourceId → Bool
  isWired : σ → NodeId → Bool
  load : σ → NodeId → Except ReadError Unit × σ
  object? : σ → NodeId → Option Address
  isSuppressed : σ → String → Bool

namespace RowCursor

/-- Loads nodes one after the other, up to the first that fails. -/
def loadAll (c : RowCursor σ) : List NodeId → σ → Except ReadError Unit × σ
  | [], s => (.ok (), s)
  | id :: ids, s =>
    match c.load s id with
    | (.error e, s) => (.error e, s)
    | (.ok (), s) => c.loadAll ids s

end RowCursor

end TypedColumns

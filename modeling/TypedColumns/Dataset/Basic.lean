import TypedColumns.Dataset.File
import TypedColumns.Event
import TypedColumns.Reading.Cursor
import TypedColumns.Settings.Basic

/-!
# Datasets

A dataset is a chain of files that is read like one long table.  It stands on one row at a time; a row of another file
makes that file the current one and starts a new generation.  Rows of secondary sources go along with the current
entry, either aligned with it or through an index.

* `Join`, `Position`, `Loaded`, `Dataset` -- how a source goes along, where a dataset stands, what it has loaded, and
  all of it together.
* `Dataset.pushFile`, `Dataset.joinAligned`, `Dataset.joinIndexed`, `Dataset.detach`, … -- setting a dataset up.
* `Dataset.seek`, `Dataset.next` -- moving on; nothing is loaded then (`Dataset.loaded_seek`).
* `Dataset.load` -- loading the object of a node of the current row.  What was loaded is there
  (`Dataset.object?_of_load`) and wired (`Dataset.isWired_of_load`), and a failed load changes nothing
  (`Dataset.eq_of_load_error`).
* `Dataset.cursor` -- a dataset as a row cursor.
-/

namespace TypedColumns

/-- How a source goes along with the entries of a dataset. -/
inductive Join where
  /-- Its rows are those of the entry itself. -/
  | aligned
  /-- An index tells the row of each entry, or that there is none. -/
  | indexed (rows : List (Option UInt64))
deriving DecidableEq, Repr

/-- Whether a join has no row for an entry. -/
def Join.misses (j : Join) (entry : UInt64) : Bool :=
  match j with
  | .aligned => false
  | .indexed rows => (rows[entry.toNat]?.join).isNone

/-- Where a dataset stands. -/
inductive Position where
  | unloaded
  | beyond (entry : UInt64)
  /-- On a row of the current file; `missed` tells that some index had no row for the entry when it was sought. -/
  | onRow (entry : UInt64) (row : Nat) (missed : Bool)
deriving DecidableEq, Repr

/-- The entry that was sought last. -/
def Position.entry? : Position → Option UInt64
  | .unloaded => none
  | .beyond entry => some entry
  | .onRow entry _ _ => some entry

/-- Where a position is, as a cursor tells it. -/
def Position.status : Position → EntryStatus
  | .unloaded => .notLoaded
  | .beyond _ => .beyondEnd
  | .onRow _ _ missed => if missed then .indexedJoinNoMatch else .valid

/-- An object that was loaded for the current row. -/
structure Loaded where
  id : NodeId
  name : String
  object : Address
deriving DecidableEq, Repr

/-- A chain of files with a current row. -/
structure Dataset where
  settings : Settings
  types : Catalog
  registry : Registry
  files : List File
  current : Nat
  position : Position
  joins : List (SourceId × Join)
  detached : List SourceId
  lazyWiring : Bool
  wired : List NodeId
  loaded : List Loaded
  corrupt : List String

namespace Dataset

/-- A dataset without files. -/
def empty (identity : RegistryId) (types : Catalog) (settings : Settings) : Dataset :=
  ⟨settings, types, Registry.empty identity, [], 0, .unloaded, [], [], false, [], [], []⟩

/-! ### Setting up -/

/-- Adds a file to the end of the chain. -/
def pushFile (d : Dataset) (f : File) : Dataset × List Event :=
  ({ d with files := d.files ++ [f] }, [.chained f.name f.size f.schema.size])

/-- Lets a source go along in a certain way, in place of the way it went before. -/
def join (d : Dataset) (source : SourceId) (j : Join) : Dataset :=
  { d with joins := (source, j) :: d.joins.filter (fun entry => entry.1 != source) }

/-- Lets a source go along with the entries themselves. -/
def joinAligned (d : Dataset) (source : SourceId) : Dataset := d.join source .aligned

/-- Lets a source go along through an index. -/
def joinIndexed (d : Dataset) (source : SourceId) (rows : List (Option UInt64)) : Dataset :=
  d.join source (.indexed rows)

/-- Takes the director away from a source. -/
def detach (d : Dataset) (source : SourceId) : Dataset := { d with detached := source :: d.detached }

/-- Sets whether nodes are wired only when they are first loaded. -/
def setLazyWiring (d : Dataset) (lazy : Bool) : Dataset := { d with lazyWiring := lazy }

/-- Lets every node of a name fail to load. -/
def markCorrupt (d : Dataset) (node : String) : Dataset := { d with corrupt := node :: d.corrupt }

/-! ### What a dataset shows -/

/-- The current file. -/
def file? (d : Dataset) : Option File := d.files[d.current]?

/-- The schema of the current file. -/
def schema? (d : Dataset) : Option Schema := d.file?.map File.schema

/-- The memory of the current file, or an empty one. -/
def arena (d : Dataset) : Arena :=
  match d.file? with
  | some f => f.arena
  | none => d.settings.arena

/-- The number of rows of all files. -/
def entries (d : Dataset) : Nat := totalSize d.files

/-- The name of the current file. -/
def fileName? (d : Dataset) : Option String := d.file?.map File.name

/-- The names of the nodes loaded for the current row, in the order of loading. -/
def loads (d : Dataset) : List String := d.loaded.map Loaded.name

/-- How a source goes along. -/
def join? (d : Dataset) (source : SourceId) : Option Join := d.joins.lookup source

/-- The row of a source that belongs to the current entry. -/
def activeRow (d : Dataset) (source : SourceId) : Option UInt64 :=
  match d.position with
  | .onRow entry _ _ =>
    if source.isPrimary then some entry
    else
      match d.join? source with
      | some (.indexed rows) => rows[entry.toNat]?.join
      | _ => some entry
  | _ => none

/-- The objects that a source delivers for the current row.  A source without a table in the current file delivers the
row itself; a table is read at the row that an index gives, or else at the same row. -/
def sourceRow? (d : Dataset) (source : SourceId) : Option Row :=
  match d.file?, d.position with
  | some f, .onRow _ row _ =>
    if source.isPrimary then f.rows[row]?
    else
      match f.table? source with
      | none => f.rows[row]?
      | some table =>
        match d.join? source with
        | some (.indexed _) => (d.activeRow source).bind (fun i => table[i.toNat]?)
        | _ => table[row]?
  | _, _ => none

/-- Whether the rows of a source are steered at all. -/
def hasDirector (d : Dataset) (source : SourceId) : Bool :=
  !d.detached.contains source && (source.isPrimary || (d.join? source).isSome)

/-- Whether it is known how a node is delivered. -/
def isWired (d : Dataset) (id : NodeId) : Bool := d.wired.contains id

/-- The object of a node, once it is loaded. -/
def object? (d : Dataset) (id : NodeId) : Option Address :=
  (d.loaded.find? (fun l => l.id == id)).map Loaded.object

/-! ### Moving on -/

/-- Makes another file the current one, under a new generation. -/
def switchTo (d : Dataset) (file : Nat) : Dataset × List Event :=
  let generation := d.registry.generation.next
  let d := { d with current := file, wired := [], registry := d.registry.announce generation }
  (d, [.announced generation d.registry.size, .switched (d.fileName?.getD "?") generation d.registry.size])

/-- Wires all nodes of the current file, unless some are wired already or that is left to loading. -/
def wire (d : Dataset) : Dataset :=
  if !d.lazyWiring && d.wired.isEmpty then
    match d.file? with
    | some f => { d with wired := (List.range f.schema.size).map NodeId.mk }
    | none => d
  else d

/-- Moves on to an entry of the chain, whose row comes without anything loaded. -/
def seek (d : Dataset) (entry : UInt64) : Dataset × List Event :=
  let d := { d with loaded := [] }
  match locateRow d.files 0 entry.toNat with
  | none => ({ d with position := .beyond entry }, [.beyondLastRow entry d.entries])
  | some (file, row) =>
    let (d, events) := if file ≠ d.current then d.switchTo file else (d, [])
    let missed := d.joins.any (fun (_, j) => j.misses entry)
    ({ d.wire with position := .onRow entry row missed }, events)

theorem loaded_wire (d : Dataset) : d.wire.loaded = d.loaded := by
  unfold wire
  split
  · split <;> rfl
  · rfl

theorem loaded_seek (d : Dataset) (entry : UInt64) : (d.seek entry).1.loaded = [] := by
  unfold seek
  dsimp only
  split
  · rfl
  · rename_i file row _
    show (Dataset.wire _).loaded = []
    rw [loaded_wire]
    split <;> rfl

theorem entry?_seek (d : Dataset) (entry : UInt64) : (d.seek entry).1.position.entry? = some entry := by
  unfold seek
  dsimp only
  split <;> rfl

/-- The entry after the one that was sought last; the highest entry has none after it. -/
def nextEntry (d : Dataset) : UInt64 :=
  match d.position.entry? with
  | none => 0
  | some entry => if entry = 0xFFFFFFFFFFFFFFFF then entry else entry + 1

/-- Moves on to the next entry. -/
def next (d : Dataset) : Dataset × List Event := d.seek d.nextEntry

/-! ### Loading -/

/-- Loads the object of a node for the current row, unless that is done already.  A node that is loaded is wired. -/
def load (d : Dataset) (id : NodeId) : Except ReadError Unit × Dataset :=
  if (d.object? id).isSome then (.ok (), d)
  else
    match d.schema?.bind (fun s => s.get? id) with
    | none => (.error .staleNode, d)
    | some node =>
      if d.corrupt.contains node.name then (.error (.load node.name "node data is corrupt"), d)
      else if (d.activeRow node.source).isNone then (.error (.noData node.name), d)
      else
        match (d.sourceRow? node.source).bind (fun row => row.find? node.name) with
        | none => (.error (.noData node.name), d)
        | some object =>
          (.ok (), { d with
            wired := if d.wired.contains id then d.wired else d.wired ++ [id]
            loaded := d.loaded ++ [⟨id, node.name, object⟩] })

theorem eq_of_load_error {d d' : Dataset} {id : NodeId} {e : ReadError} (h : d.load id = (.error e, d')) : d' = d := by
  unfold load at h
  split at h
  · cases h
  · split at h
    · cases h
      rfl
    · split at h
      · cases h
        rfl
      · split at h
        · cases h
          rfl
        · split at h
          · cases h
            rfl
          · cases h

theorem object?_of_load {d d' : Dataset} {id : NodeId} (h : d.load id = (.ok (), d')) :
    (d'.object? id).isSome = true := by
  unfold load at h
  split at h
  · rename_i hid
    cases h
    exact hid
  · split at h
    · cases h
    · split at h
      · cases h
      · split at h
        · cases h
        · split at h
          · cases h
          · cases h
            simp [object?, List.find?_append]

theorem isWired_of_load {d d' : Dataset} {id : NodeId} (hnew : d.object? id = none) (h : d.load id = (.ok (), d')) :
    d'.isWired id = true := by
  unfold load at h
  rw [hnew] at h
  simp only [Option.isSome_none, Bool.false_eq_true, if_false] at h
  split at h
  · cases h
  · split at h
    · cases h
    · split at h
      · cases h
      · split at h
        · cases h
        · cases h
          show (if d.wired.contains id then d.wired else d.wired ++ [id]).contains id = true
          split
          · assumption
          · simp

/-- A client's own announcement of a generation; answers how many bindings were told. -/
def announce (d : Dataset) (generation : Generation) : Dataset × List Event :=
  let d := { d with registry := d.registry.announce generation }
  (d, [.announced generation d.registry.size])

/-- A dataset as a row cursor. -/
def cursor : RowCursor Dataset where
  schema := schema?
  types := Dataset.types
  image d := d.arena.image
  registry := Dataset.registry
  generation d := d.registry.generation
  status d := d.position.status
  activeRow := activeRow
  hasDirector := hasDirector
  isWired := isWired
  load := load
  object? := object?
  isSuppressed d path := d.settings.isSuppressed path

end Dataset

end TypedColumns

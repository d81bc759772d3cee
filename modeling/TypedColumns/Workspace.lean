import TypedColumns.Binding.Column
import TypedColumns.Dataset.Basic

/-!
# Workspaces

A workspace holds some datasets and the columns that a client has bound on them.  It knows which registry a binding is
registered with, and that a registry is gone once its dataset is closed.

* `Column`, `Workspace` -- a binding with the type it is decoded as, if any; datasets and columns by number.
* `Workspace.openDataset`, `Workspace.closeDataset` -- datasets come and go.
* `Workspace.bind` -- a new column on a dataset.
* `Workspace.isAttached`, `Workspace.detach`, `Workspace.drop` -- the end of a binding.
-/

namespace TypedColumns

/-- A bound column, decoded as a type if it asks for one. -/
structure Column where
  type : Option ColumnType
  binding : Binding

/-- Datasets and columns by number; those that are gone leave a gap. -/
structure Workspace where
  datasets : List (Option Dataset)
  columns : List (Option Column)

namespace Workspace

/-- The workspace without datasets. -/
def empty : Workspace := ⟨[], []⟩

/-- The dataset of a number, as long as it is open. -/
def dataset? (w : Workspace) (number : Nat) : Option Dataset := w.datasets[number]?.join

/-- The column of a number, as long as it is there. -/
def column? (w : Workspace) (number : Nat) : Option Column := w.columns[number]?.join

/-- Puts a dataset in place of the one of its number. -/
def setDataset (w : Workspace) (number : Nat) (d : Dataset) : Workspace :=
  { w with datasets := w.datasets.set number (some d) }

theorem dataset?_setDataset_self {w : Workspace} {number : Nat} {d : Dataset} (h : w.dataset? number = some d)
    (e : Dataset) : (w.setDataset number e).dataset? number = some e := by
  have hlt : number < w.datasets.length := by
    cases hget : w.datasets[number]? with
    | none =>
        unfold dataset? at h
        rw [hget] at h
        cases h
    | some x => exact (List.getElem?_eq_some_iff.1 hget).1
  show ((w.datasets.set number (some e))[number]?).join = some e
  rw [List.getElem?_set_self hlt]
  rfl

theorem dataset?_setDataset_of_ne (w : Workspace) {number other : Nat} (h : other ≠ number) (e : Dataset) :
    (w.setDataset number e).dataset? other = w.dataset? other := by
  show ((w.datasets.set number (some e))[other]?).join = (w.datasets[other]?).join
  rw [List.getElem?_set_ne (Ne.symm h)]

/-- Puts a binding in place of the one of a column. -/
def setBinding (w : Workspace) (number : Nat) (b : Binding) : Workspace :=
  match w.column? number with
  | some column => { w with columns := w.columns.set number (some { column with binding := b }) }
  | none => w

/-- Opens a dataset without files; its registry is told from all others by the dataset's number. -/
def openDataset (w : Workspace) (types : Catalog) (settings : Settings) : Nat × Workspace :=
  let number := w.datasets.length
  (number, { w with datasets := w.datasets ++ [some (Dataset.empty ⟨number⟩ types settings)] })

/-- Closes a dataset. -/
def closeDataset (w : Workspace) (number : Nat) : Workspace := { w with datasets := w.datasets.set number none }

/-- Binds a column on a dataset. -/
def bind (w : Workspace) (number : Nat) (path : String) (requested : Option String) (type : Option ColumnType) :
    Option (Nat × Workspace) :=
  match w.dataset? number with
  | none => none
  | some d =>
    let (b, registry) := Binding.register d.registry path requested
    some (w.columns.length,
      { w.setDataset number { d with registry := registry } with columns := w.columns ++ [some ⟨type, b⟩] })

/-- The registry that a registration belongs to, as long as it is there and the registration has not left. -/
def home? (w : Workspace) (g : Registration) : Option (Nat × Dataset) :=
  match g.home with
  | none => none
  | some identity => (w.dataset? identity.number).map (fun d => (identity.number, d))

/-- Whether a registration is live on its registry. -/
def isAttached (w : Workspace) (g : Registration) : Bool :=
  match w.home? g with
  | some (_, d) => d.registry.serves g
  | none => false

/-- Takes a registration off its registry; answers whether it was live. -/
def release (w : Workspace) (g : Registration) : Bool × Workspace :=
  match w.home? g with
  | none => (false, w)
  | some (number, d) =>
    let (live, registry) := d.registry.release g
    (live, w.setDataset number { d with registry := registry })

/-- Lets a binding leave its registry for good; answers whether it was live. -/
def detach (w : Workspace) (number : Nat) : Option (Bool × Workspace) :=
  match w.column? number with
  | none => none
  | some column =>
    let (live, w) := w.release column.binding.registration
    some (live,
      w.setBinding number { column.binding with registration := column.binding.registration.leave })

/-- Drops a column, which leaves its registry. -/
def drop (w : Workspace) (number : Nat) : Workspace :=
  match w.column? number with
  | none => w
  | some column =>
    let (_, w) := w.release column.binding.registration
    { w with columns := w.columns.set number none }

end Workspace

end TypedColumns

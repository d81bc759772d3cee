/-!
# TOML trees

A document is a table of nodes by key.  What may be added to a table later depends on how it came about.

* `Origin`, `Node`, `Entries` -- how a table came about, the nodes, and the entries of a table.
* `alter` -- the entries with one node replaced or added.
* `within` -- work on the table that a header path leads to.  Tables on the way are made where they are missing; of an
  array of tables the last is meant; a table written in braces is closed.
* `openTable`, `openElement`, `insert` -- a table header, the header of one more element of an array of tables, and a
  value under a dotted key.
-/

namespace TypedColumns.Toml

/-- How a table came about. -/
inductive Origin where
  /-- By a header of its own. -/
  | header
  /-- On the way to a table with a header. -/
  | implied
  /-- On the way to a value with a dotted key. -/
  | dotted
  /-- In braces. -/
  | inline
deriving DecidableEq, Repr

/-- A node of a document.  Moments and floating-point numbers are kept as they are written. -/
inductive Node where
  | string (value : String)
  | integer (value : Int)
  | float (text : String)
  | boolean (value : Bool)
  | moment (text : String)
  | array (items : List Node)
  | table (origin : Origin) (entries : List (String × Node))
  | tables (elements : List (List (String × Node)))

/-- The entries of a table, no two under the same key. -/
abbrev Entries := List (String × Node)

/-- The entries with the node under a key replaced or added, as `f` makes it from what was there. -/
def alter (f : Option Node → Option Node) (key : String) : Entries → Option Entries
  | [] => (f none).map (fun n => [(key, n)])
  | (k, n) :: es =>
    if k = key then (f (some n)).map (fun n => (k, n) :: es)
    else (alter f key es).map (fun es => (k, n) :: es)

/-- The elements with the last one replaced. -/
def alterLast (f : Entries → Option Entries) : List Entries → Option (List Entries)
  | [] => none
  | [es] => (f es).map (fun es => [es])
  | es :: rest => (alterLast f rest).map (fun rest => es :: rest)

/-- Works on the table that a header path leads to. -/
def within (f : Entries → Option Entries) : List String → Entries → Option Entries
  | [], es => f es
  | key :: path, es =>
    alter (fun
      | none => (within f path []).map (Node.table .implied)
      | some (.table .inline _) => none
      | some (.table origin sub) => (within f path sub).map (Node.table origin)
      | some (.tables elements) => (alterLast (within f path) elements).map Node.tables
      | some _ => none) key es

/-- Gives a table its header, which no table has twice and no table made by dotted keys has. -/
def openTable (path : List String) (key : String) (es : Entries) : Option Entries :=
  within (alter (fun
    | none => some (.table .header [])
    | some (.table .implied sub) => some (.table .header sub)
    | some _ => none) key) path es

/-- Adds an element to an array of tables, which only such headers make. -/
def openElement (path : List String) (key : String) (es : Entries) : Option Entries :=
  within (alter (fun
    | none => some (.tables [[]])
    | some (.tables elements) => some (.tables (elements ++ [[]]))
    | some _ => none) key) path es

/-- Adds a value under a dotted key.  The key may lead on through tables that dotted keys have made, and through tables
without a header of their own except as the last step. -/
def insert (value : Node) : List String → String → Entries → Option Entries
  | [], key, es =>
    alter (fun
      | none => some value
      | some _ => none) key es
  | step :: path, key, es =>
    alter (fun
      | none => (insert value path key []).map (Node.table .dotted)
      | some (.table .dotted sub) => (insert value path key sub).map (Node.table .dotted)
      | some (.table .implied sub) =>
        if path.isEmpty then none else (insert value path key sub).map (Node.table .implied)
      | some (.tables elements) =>
        if path.isEmpty then none else (alterLast (insert value path key) elements).map Node.tables
      | some _ => none) step es

end TypedColumns.Toml

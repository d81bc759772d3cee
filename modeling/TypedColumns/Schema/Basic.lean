import TypedColumns.Schema.Node
import TypedColumns.Text.Path

/-!
# Schemas

A schema holds the nodes that every row of a dataset file has, with a table of their names and, for every node, the list
of those that lie in it.

* `WellLinked` -- names are distinct, and a node refers to other nodes of the list only; `wellLinked_iff` makes it
  decidable.
* `NameTable`, `NameTable.Lists` -- which node a name stands for; a table of the names of a list.
* `NodeGraph` -- nodes, the table of their names and the lists of their children, as they are filled in.
* `linkChildren`, `linkedChildren` -- the lists of children, filled in node by node.
* `Schema` -- a graph of well-linked nodes with the table of their names; `Schema.ofNodes` is that of given nodes.
* `Schema.lookup`, `Schema.lookupObject`, `Schema.find` -- the node of a name; the same also under the name with a dot
  behind it; the same also as the child of a node under the qualified name `parent.child`.
* `Schema.children` -- the list of the nodes that lie in a node.
-/

namespace TypedColumns

/-- The names of nodes are distinct, and every node refers to other nodes of the list only. -/
structure WellLinked (nodes : List Node) : Prop where
  distinct : (nodes.map Node.name).Nodup
  known : ∀ (i : Nat) (n : Node), nodes[i]? = some n → ∀ r ∈ n.references, r.index < nodes.length ∧ r.index ≠ i

theorem wellLinked_iff {nodes : List Node} : WellLinked nodes ↔
    (nodes.map Node.name).Nodup ∧
      ∀ p ∈ nodes.zipIdx, ∀ r ∈ p.1.references, r.index < nodes.length ∧ r.index ≠ p.2 := by
  refine ⟨?_, ?_⟩
  · intro h
    refine ⟨h.distinct, ?_⟩
    intro p hp
    exact h.known p.2 p.1 (List.mem_zipIdx_iff_getElem?.1 hp)
  · intro h
    refine ⟨h.1, ?_⟩
    intro i n hn
    exact h.2 (n, i) (List.mem_zipIdx_iff_getElem?.2 hn)

instance (nodes : List Node) : Decidable (WellLinked nodes) := decidable_of_iff _ wellLinked_iff.symm

/-! ### Names -/

/-- Which node a name stands for, if any. -/
structure NameTable where
  find? : String → Option NodeId

namespace NameTable

/-- The table without names. -/
def empty : NameTable := ⟨fun _ => none⟩

/-- The table with a name entered for a node, in place of what the name stood for before. -/
def insert (t : NameTable) (name : String) (id : NodeId) : NameTable :=
  ⟨fun other => if other = name then some id else t.find? other⟩

theorem find?_insert (t : NameTable) (name : String) (id : NodeId) (other : String) :
    (t.insert name id).find? other = if other = name then some id else t.find? other := rfl

/-- The names of a list, each for its position in it, are the names of the table. -/
def Lists (t : NameTable) (names : List String) : Prop :=
  ∀ name id, t.find? name = some id ↔ names[id.index]? = some name

/-- The table of the names of a list, the first position of each. -/
def ofNames (names : List String) : NameTable := ⟨fun name => (names.findIdx? (· == name)).map NodeId.mk⟩

theorem lists_ofNames {names : List String} (h : names.Nodup) : (ofNames names).Lists names := by
  rintro name ⟨i⟩
  rw [ofNames, Option.map_eq_some_iff]
  constructor
  · rintro ⟨j, hj, hji⟩
    cases hji
    obtain ⟨hlt, hname, -⟩ := List.findIdx?_eq_some_iff_getElem.1 hj
    rw [List.getElem?_eq_getElem hlt, eq_of_beq hname]
  · intro hi
    obtain ⟨hlt, rfl⟩ := List.getElem?_eq_some_iff.1 hi
    refine ⟨i, List.findIdx?_eq_some_iff_getElem.2 ⟨hlt, beq_self_eq_true _, ?_⟩, rfl⟩
    intro j hj hc
    have hji : j = i := by
      refine (List.getElem?_inj (Nat.lt_trans hj hlt) h).1 ?_
      rw [List.getElem?_eq_getElem (Nat.lt_trans hj hlt), List.getElem?_eq_getElem hlt, eq_of_beq hc]
    exact Nat.lt_irrefl _ (hji ▸ hj)

end NameTable

/-! ### Children -/

/-- The lists of children after the nodes at some positions: each of these is entered at the end of the list of the node
that it lies in. -/
def linkChildren (nodes : List Node) : List Nat → List (List NodeId) → List (List NodeId)
  | [], lists => lists
  | i :: is, lists =>
    match nodes[i]?.bind Node.parent with
    | none => linkChildren nodes is lists
    | some p => linkChildren nodes is (lists.modify p.node.index (· ++ [⟨i⟩]))

/-- The lists of children of some nodes, empty at first and filled in node by node. -/
def linkedChildren (nodes : List Node) : List (List NodeId) :=
  linkChildren nodes (List.range nodes.length) (nodes.map fun _ => [])

/-! ### Schemas -/

/-- The nodes of a schema, the table of their names, and for every node the list of those that lie in it. -/
structure NodeGraph where
  nodes : List Node
  names : NameTable
  childLists : List (List NodeId)

/-- The nodes that every row of a dataset file holds: well linked, and each found by its name. -/
structure Schema extends NodeGraph where
  linked : WellLinked nodes
  indexed : names.Lists (nodes.map Node.name)

namespace Schema

/-- The schema of some nodes. -/
def ofNodes (nodes : List Node) (h : WellLinked nodes) : Schema :=
  ⟨⟨nodes, .ofNames (nodes.map Node.name), linkedChildren nodes⟩, h, NameTable.lists_ofNames h.distinct⟩

/-- The schema without nodes. -/
def empty : Schema := ofNodes [] ⟨by simp, by simp⟩

/-- The number of nodes. -/
def size (s : Schema) : Nat := s.nodes.length

/-- The node at a position. -/
def get? (s : Schema) (id : NodeId) : Option Node := s.nodes[id.index]?

/-- The first node of which a test holds. -/
def findNode? (s : Schema) (p : Node → Bool) : Option NodeId := (s.nodes.findIdx? p).map NodeId.mk

/-- The node of exactly this name. -/
def lookup (s : Schema) (name : String) : Option NodeId := s.names.find? name

/-- The node of this name, else of this name with a dot behind it. -/
def lookupObject (s : Schema) (name : String) : Option NodeId :=
  match s.lookup name with
  | some id => some id
  | none => s.lookup (name ++ ".")

/-- The name of a node that lies in another, qualified by the other's name without the dots at its end. -/
def qualifiedName? (s : Schema) (n : Node) : Option String :=
  match n.parent with
  | some p =>
    match s.get? p.node with
    | some parent => some (Path.withoutTrailingDots parent.name ++ "." ++ n.name)
    | none => none
  | none => none

/-- The node that a name stands for as it is, an object first, else the first child of that qualified name. -/
def find (s : Schema) (name : String) : Option NodeId :=
  match s.lookupObject name with
  | some id => some id
  | none => s.findNode? (fun n => s.qualifiedName? n == some name)

/-- The nodes that lie in a node. -/
def children (s : Schema) (id : NodeId) : List NodeId := (s.childLists[id.index]?).getD []

end Schema

end TypedColumns

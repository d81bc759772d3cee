import TypedColumns.Types.Descriptor

/-!
# Schema nodes

A node is one named object that a row holds: what type it is of, which source delivers it, how it hangs on other
nodes, whether it holds several elements, and which members are known of it.

* `NodeId`, `SourceId` -- the position of a node in its schema, and the number of a source (`SourceId.primary` is 0).
* `Placement` -- inside which node an object lies, and how far from its start.
* `Elements` -- one object, or a collection of objects or of pointers to them.
* `Node`, `Node.references` -- a node and the other nodes it refers to.
-/

namespace TypedColumns

/-- The position of a node in its schema. -/
structure NodeId where
  index : Nat
deriving DecidableEq, Repr

/-- The written form of a node's position. -/
def NodeId.text (id : NodeId) : String := s!"#{id.index}"

/-- The number of a source that delivers rows. -/
structure SourceId where
  number : UInt16
deriving DecidableEq, Repr

/-- The source that every dataset has. -/
def SourceId.primary : SourceId := ⟨0⟩

/-- Whether a source is the one that every dataset has. -/
def SourceId.isPrimary (s : SourceId) : Bool := s == primary

/-- Inside which node an object lies, and how far from its start. -/
structure Placement where
  node : NodeId
  offset : UInt64
deriving DecidableEq, Repr

/-- Whether a node holds one object, a collection of objects, or a collection of pointers to objects. -/
inductive Elements where
  | single
  | inline
  | pointers
deriving DecidableEq, Repr

/-- Whether a node holds a collection. -/
def Elements.isCollection (e : Elements) : Bool := e != .single

/-- Whether the elements of a node are reached through pointers. -/
def Elements.areBehindPointers (e : Elements) : Bool := e == .pointers

/-- A named object of a row.  A structured node is walked member by member, any other has leaves whose names are
matched as a whole. -/
structure Node where
  name : String
  type : String
  source : SourceId
  parent : Option Placement
  count : Option NodeId
  elements : Elements
  structured : Bool
  members : List Member
deriving DecidableEq, Repr

namespace Node

/-- The nodes that a node refers to: the one it lies in and the one that counts its elements. -/
def references (n : Node) : List NodeId := (n.parent.map Placement.node).toList ++ n.count.toList

/-- The first member called `name`. -/
def member? (n : Node) (name : String) : Option Member := findMember? n.members name

/-- Whether a node lies in no other. -/
def isTopLevel (n : Node) : Bool := n.parent.isNone

end Node

end TypedColumns

import TypedColumns.Event
import TypedColumns.Reading.Cursor

/-!
# Read plans

Reading a node takes two steps, whatever its shape: some nodes are loaded, and then the address of the object follows
from where the loaded objects are.  A plan remembers the node and, once the node has been wired, its shape.

* `Target` -- the node to read.
* `Shape.needs`, `Shape.place`, `Shape.read` -- the nodes to load, the address that follows, and both together.
* `Plan`, `Plan.read` -- a node to read under one generation.  While the node is not wired it is read as if it had no
  director; as soon as it is wired its shape is decided once and for all.  Reading keeps the generation and the node
  (`Plan.generation_read`, `Plan.target_read`).
* `Dispatcher` -- a plan, or none.
-/

namespace TypedColumns

/-- A node to read, with its position in the schema. -/
structure Target where
  id : NodeId
  node : Node
deriving DecidableEq, Repr

/-- How far inside its parent the target lies; zero where it lies in no other node. -/
def Target.offsetInParent (t : Target) : UInt64 :=
  match t.node.parent with
  | some p => p.offset
  | none => 0

namespace Shape

/-- The node that the target lies in, if it lies in one. -/
def parentOf (t : Target) : Except ReadError Placement :=
  match t.node.parent with
  | some p => .ok p
  | none => .error (.load t.node.name "node has no parent object")

/-- The node that counts the target's elements, if there is one. -/
def countOf (t : Target) : Except ReadError NodeId :=
  match t.node.count with
  | some id => .ok id
  | none => .error (.load t.node.name "node has no count sibling")

/-- The nodes to load, in order: the parent alone, or the target, after the count of a counted one. -/
def needs (shape : Shape) (t : Target) : Except ReadError (List NodeId) :=
  match shape with
  | .noCoordinator | .scalar | .collectionPointer | .collectionValue => .ok [t.id]
  | .parentScalar | .parentCollectionPointer | .parentCollectionValue =>
    match parentOf t with
    | .ok p => .ok [p.node]
    | .error e => .error e
  | .countedCollectionPointer | .countedCollectionValue | .countedScalar =>
    match countOf t with
    | .ok id => .ok [id, t.id]
    | .error e => .error e

/-- The object of a node among the loaded ones. -/
def objectOf (t : Target) (object? : NodeId → Option Address) (id : NodeId) : Except ReadError Address :=
  match object? id with
  | some a => .ok a
  | none => .error (.noData t.node.name)

/-- The place inside the parent's object where the target, or the pointer to it, stands. -/
def slot (t : Target) (object? : NodeId → Option Address) : Except ReadError Address :=
  match parentOf t with
  | .error e => .error e
  | .ok p =>
    match objectOf t object? p.node with
    | .error e => .error e
    | .ok a => readMemory (a.plus? p.offset)

/-- The address that follows from the loaded objects. -/
def place (shape : Shape) (t : Target) (object? : NodeId → Option Address) (m : Image) : Except ReadError Address :=
  match shape with
  | .noCoordinator | .scalar | .collectionValue | .countedCollectionValue | .countedScalar =>
    objectOf t object? t.id
  | .collectionPointer | .countedCollectionPointer =>
    match objectOf t object? t.id with
    | .error e => .error e
    | .ok a => readMemory (m.target a)
  | .parentScalar | .parentCollectionValue => slot t object?
  | .parentCollectionPointer =>
    match slot t object? with
    | .error e => .error e
    | .ok a => readMemory (m.target a)

/-- Loads what a shape needs and finds the target. -/
def read (shape : Shape) (c : RowCursor σ) (t : Target) (s : σ) : Except ReadError Address × σ :=
  match shape.needs t with
  | .error e => (.error e, s)
  | .ok ids =>
    match c.loadAll ids s with
    | (.error e, s) => (.error e, s)
    | (.ok (), s) => (shape.place t (c.object? s) (c.image s), s)

end Shape

/-- A node to read under one generation, with its shape once that is decided. -/
structure Plan where
  generation : Generation
  target : Target
  shape : Option Shape
deriving DecidableEq, Repr

/-- What reading by a plan leaves behind. -/
structure PlanRead (σ : Type) where
  base : Except ReadError Address
  plan : Plan
  state : σ
  events : List Event

namespace Plan

/-- A plan for a node whose shape is not decided yet. -/
def prepare (id : NodeId) (node : Node) (generation : Generation) : Plan := ⟨generation, ⟨id, node⟩, none⟩

/-- Decides the shape and reads by it. -/
def decideAndRead (p : Plan) (c : RowCursor σ) (s : σ) : PlanRead σ :=
  let shape := p.target.node.facts.shape (c.hasDirector s p.target.node.source)
  let (base, s) := shape.read c p.target s
  ⟨base, { p with shape := some shape }, s, [.classified p.target.node.name shape]⟩

/-- Reads by a plan, which holds for its own generation only. -/
def read (p : Plan) (c : RowCursor σ) (s : σ) : PlanRead σ :=
  if p.generation ≠ c.generation s then ⟨.error .staleNode, p, s, []⟩
  else
    match p.shape with
    | some shape =>
      let (base, s) := shape.read c p.target s
      ⟨base, p, s, []⟩
    | none =>
      if c.isWired s p.target.id then p.decideAndRead c s
      else
        match Shape.noCoordinator.read c p.target s with
        | (.error e, s) => ⟨.error e, p, s, []⟩
        | (.ok base, s) =>
          if c.isWired s p.target.id then p.decideAndRead c s else ⟨.ok base, p, s, []⟩

theorem generation_read (p : Plan) (c : RowCursor σ) (s : σ) : (p.read c s).plan.generation = p.generation := by
  unfold read
  split
  · rfl
  · split
    · rfl
    · split
      · rfl
      · split
        · rfl
        · split <;> rfl

theorem target_read (p : Plan) (c : RowCursor σ) (s : σ) : (p.read c s).plan.target = p.target := by
  unfold read
  split
  · rfl
  · split
    · rfl
    · split
      · rfl
      · split
        · rfl
        · split <;> rfl

end Plan

/-- A plan to read by, when one has been made. -/
structure Dispatcher where
  plan : Option Plan
deriving DecidableEq, Repr

namespace Dispatcher

/-- The dispatcher without a plan. -/
def idle : Dispatcher := ⟨none⟩

/-- Whether there is a plan for this generation. -/
def isCurrent (d : Dispatcher) (g : Generation) : Bool :=
  match d.plan with
  | some p => p.generation == g
  | none => false

/-- The decided shape of the plan, if there is one. -/
def shape? (d : Dispatcher) : Option Shape :=
  match d.plan with
  | some p => p.shape
  | none => none

/-- Reads by the plan; without one there is nothing to read. -/
def read (d : Dispatcher) (c : RowCursor σ) (s : σ) : Except ReadError Address × Dispatcher × σ × List Event :=
  match d.plan with
  | none => (.error .staleNode, d, s, [])
  | some p =>
    let r := p.read c s
    (r.base, ⟨some r.plan⟩, r.state, r.events)

end Dispatcher

end TypedColumns
